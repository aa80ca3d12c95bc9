import AcornAlarms.Lanes.Books

/-!
# The end of the coordinator loop

Which confirmations are answered when the loop ends, and when the loop notices that the
workflow handler stopped. The key of a confirmation is looked up in the speculative state, so
one whose key has a newer intent is dropped; and a closed channel only disables its branch, so
the stop is noticed when a job is dispatched, not before.
-/

namespace AcornAlarms

open Library

section

variable [Platform]

/-- Every pending confirmation is failed in `out`, for the key of the update that registered
it. -/
def AllFailed (past : List Event) (pendingConfirmations : FiniteMap Nat Confirmation)
    (out : List Event) : Prop :=
  ∀ id confirmation, pendingConfirmations.get? id = some confirmation →
    ∃ key status, .admitted id key status confirmation ∈ past ∧
      .resolved id key confirmation (.error (.internal key)) ∈ out

namespace AlarmStateCoordinator

variable (self : AlarmStateCoordinator)

/-- Every pending confirmation is that of the latest speculative entry of some key. -/
def PendingLatest : Prop :=
  ∀ id confirmation, self.pendingConfirmations.get? id = some confirmation →
    ∃ key status, self.speculativeState.get? key = some (status, id)

/-- Whether a message makes the coordinator dispatch a job. -/
def dispatches : DomainInput → Bool
  | .snapshotRequest _ => false
  | .automatedUpdate status =>
      self.publishes status && (self.speculativeState.get? (Key.from status)).isNone
  | .userUpdate key action _ _ =>
      self.allows key action && (self.speculativeState.get? key).isNone

/-- The key the shutdown finds for an id. -/
def keyOfId (id : Nat) : Option Key :=
  self.speculativeState.entries.findSome? fun entry =>
    if entry.2.2 = id then some entry.1 else none

theorem keyOfId_eq_some {id : Nat} {key : Key} (found : self.keyOfId id = some key) :
    ∃ status, self.speculativeState.get? key = some (status, id) := by
  obtain ⟨⟨named, status, mapped⟩, member, same⟩ := List.exists_of_findSome?_eq_some found
  simp only [Option.ite_none_right_eq_some, Option.some.injEq] at same
  obtain ⟨rfl, rfl⟩ := same
  exact ⟨status, (FiniteMap.mem_entries_iff _ _ _).mp member⟩

theorem keyOfId_isSome {id : Nat} {key : Key} {status : Status}
    (latest : self.speculativeState.get? key = some (status, id)) :
    ∃ named, self.keyOfId id = some named := by
  rw [← Option.isSome_iff_exists, keyOfId, List.findSome?_isSome_iff]
  refine ⟨(key, status, id), (FiniteMap.mem_entries_iff _ _ _).mpr latest, ?_⟩
  simp

theorem mem_failAllConfirmations_iff {event : Event} :
    event ∈ self.failAllConfirmations.2 ↔ ∃ id confirmation key,
      self.pendingConfirmations.get? id = some confirmation ∧ self.keyOfId id = some key ∧
        event = .resolved id key confirmation (.error (.internal key)) := by
  simp only [failAllConfirmations, List.mem_filterMap, Prod.exists, FiniteMap.mem_entries_iff,
    Option.map_eq_some_iff]
  constructor
  · rintro ⟨id, confirmation, owed, key, found, rfl⟩
    exact ⟨id, confirmation, key, owed, found, rfl⟩
  · rintro ⟨id, confirmation, key, owed, found, rfl⟩
    exact ⟨id, confirmation, owed, key, found, rfl⟩

end AlarmStateCoordinator

/-- The shutdown answers everyone if every pending confirmation is that of a latest entry, and
only then. -/
theorem Books.allFailed_iff {hydratedStatuses : FiniteMap Key Status} {past : List Event}
    {desk : AlarmStateCoordinator} (books : Books hydratedStatuses past desk) :
    AllFailed past desk.pendingConfirmations desk.failAllConfirmations.2 ↔ desk.PendingLatest := by
  constructor
  · intro failed id confirmation owed
    obtain ⟨key, _, _, answered⟩ := failed id confirmation owed
    obtain ⟨_, _, _, _, found, same⟩ := desk.mem_failAllConfirmations_iff.mp answered
    obtain ⟨rfl, rfl, _, _⟩ := Event.resolved.inj same
    obtain ⟨status, latest⟩ := desk.keyOfId_eq_some found
    exact ⟨key, status, latest⟩
  · intro pending id confirmation owed
    obtain ⟨_, _, latest⟩ := pending id confirmation owed
    obtain ⟨key, found⟩ := desk.keyOfId_isSome latest
    obtain ⟨status, latest⟩ := desk.keyOfId_eq_some found
    obtain ⟨admittedKey, admittedStatus, admitted⟩ := books.ledger.pending owed
    -- The id is that of the admitted update, so the key that was found is the update's.
    have same : key = admittedKey := by
      rcases books.ledger.latest latest with ⟨reserved, _⟩ | issued
      · rw [reserved, books.ledger.reserved] at owed
        cases owed
      · exact (books.ledger.unique issued (.inr ⟨confirmation, admitted⟩)).1
    subst same
    exact ⟨key, admittedStatus, admitted,
      desk.mem_failAllConfirmations_iff.mpr ⟨id, confirmation, key, owed, found, rfl⟩⟩

/-- When the loop ends, everyone is answered exactly if every confirmation still pending is
that of the latest entry of its key. -/
theorem shutdown_answers_iff {hydratedStatuses : FiniteMap Key Status}
    {actions : List CoordinatorLoop.Action} {action : CoordinatorLoop.Action}
    {events : List Event} {loop taken : CoordinatorLoop} {handled : Handled} {cause : String}
    (run : CoordinatorLoop.machine.Run Machine.Every (.start hydratedStatuses) actions events loop)
    (running : loop.running = true) (selects : loop.select action = some (taken, handled))
    (fails : handled.failure = some cause) :
    loop.step action = some ({ taken with
        coordinator := handled.coordinator.failAllConfirmations.1
        running := false },
      handled.events ++ .unrecoverable cause :: handled.coordinator.failAllConfirmations.2) ∧
    (AllFailed (events ++ handled.events) handled.coordinator.pendingConfirmations
        handled.coordinator.failAllConfirmations.2 ↔ handled.coordinator.PendingLatest) := by
  constructor
  · cases action with
    | message | jobOutcome | channelsDropped =>
        simp [CoordinatorLoop.step, running, selects, CoordinatorLoop.finish, fails]
    | report | wake | workflowStops => cases selects
  · exact ((CoordinatorLoop.kept run running).handles selects).1.allFailed_iff

namespace AlarmStateCoordinator

variable (self : AlarmStateCoordinator) (port : JobPort)

theorem recordedVia_unresolved (key : Key) (status : Status) (confirmation : Option Confirmation)
    (id : Nat) (other : Key) (owed : Confirmation) (answer : Except UpdateError Unit) :
    .resolved id other owed answer ∉ (self.recordedVia port key status confirmation).events := by
  have recorded : Event.resolved id other owed answer ≠
      self.recordEvent key status confirmation := by
    cases confirmation <;> simp [recordEvent]
  unfold recordedVia
  split
  · intro member
    rcases List.mem_cons.mp member with same | sent
    · exact recorded same
    · obtain ⟨_, same⟩ := sendNextFor_events _ port key _ sent
      cases same
  · intro member
    exact recorded (List.mem_singleton.mp member)

/-- A message from outside answers no pending confirmation. -/
theorem handleMessage_unresolved (now : Int) (message : DomainInput) (id : Nat) (key : Key)
    (confirmation : Confirmation) (answer : Except UpdateError Unit) :
    .resolved id key confirmation answer ∉ (self.handleMessage port now message).events := by
  cases message with
  | snapshotRequest sender => simp [handleMessage, handleSnapshot, Handled.done]
  | automatedUpdate status =>
      rw [handleMessage, handleAutomatedUpdate_via]
      split
      · exact self.recordedVia_unresolved port _ status none id key confirmation answer
      · simp [Handled.done]
  | userUpdate named action user owed =>
      rw [handleMessage, handleUserUpdate_via]
      split
      · exact self.recordedVia_unresolved port named _ (some owed) id key confirmation answer
      · simp [Handled.done]

variable {self}

/-- Once the workflow handler stopped, recording a status fails if no job of its key is in
flight. -/
theorem recordedVia_stopped (key : Key) (status : Status) (confirmation : Option Confirmation) :
    (self.recordedVia ⟨false⟩ key status confirmation).coordinator =
        self.record key status confirmation ∧
      (self.recordedVia ⟨false⟩ key status confirmation).failure =
        if (self.speculativeState.get? key).isNone then some workflowHandlerStopped else none := by
  unfold recordedVia
  split
  · constructor
    · exact sendNextFor_coordinator _ _ key
    · exact (sendNextFor_failure _ _ key).trans (by simp)
  · exact ⟨rfl, rfl⟩

/-- A message the coordinator dispatches a job for fails its handler, once the workflow handler
stopped, and no other message does. -/
theorem handleMessage_stopped (now : Int) (message : DomainInput) :
    (self.dispatches message = true ∧ ∃ key status confirmation,
      self.speculativeState.get? key = none ∧
      (self.handleMessage ⟨false⟩ now message).coordinator = self.record key status confirmation ∧
      (self.handleMessage ⟨false⟩ now message).failure = some workflowHandlerStopped) ∨
    (self.dispatches message = false ∧
      (self.handleMessage ⟨false⟩ now message).failure = none) := by
  cases message with
  | snapshotRequest sender => exact .inr ⟨rfl, rfl⟩
  | automatedUpdate status =>
      obtain ⟨coordinator, failure⟩ := self.recordedVia_stopped (Key.from status) status none
      rw [handleMessage, handleAutomatedUpdate_via, dispatches]
      cases publishes : self.publishes status with
      | false => exact .inr ⟨rfl, rfl⟩
      | true =>
          rw [if_pos rfl, failure, Bool.true_and]
          cases entry : self.speculativeState.get? (Key.from status) with
          | none => exact .inl ⟨rfl, _, _, _, entry, coordinator, rfl⟩
          | some found => exact .inr ⟨rfl, rfl⟩
  | userUpdate key action user owed =>
      obtain ⟨coordinator, failure⟩ :=
        self.recordedVia_stopped key (buildUserStatus key action user now) (some owed)
      rw [handleMessage, handleUserUpdate_via, dispatches]
      cases allows : self.allows key action with
      | false => exact .inr ⟨rfl, rfl⟩
      | true =>
          rw [if_pos rfl, failure, Bool.true_and]
          cases entry : self.speculativeState.get? key with
          | none => exact .inl ⟨rfl, _, _, _, entry, coordinator, rfl⟩
          | some found => exact .inr ⟨rfl, rfl⟩

/-- A status recorded for an idle key neither forgets a pending confirmation nor saves one. -/
theorem pendingLatest_record_iff {key : Key} {status : Status} {confirmation : Option Confirmation}
    (fresh : self.pendingConfirmations.get? self.idCounter = none)
    (idle : self.speculativeState.get? key = none) :
    (self.record key status confirmation).PendingLatest ↔ self.PendingLatest := by
  constructor
  · intro latest id owed found
    have old : id ≠ self.idCounter := by
      rintro rfl
      rw [fresh] at found
      cases found
    have kept : (self.record key status confirmation).pendingConfirmations.get? id = some owed := by
      rw [record_pending, if_neg fun new => old new.1, found]
    obtain ⟨other, known, entry⟩ := latest id owed kept
    rw [record_speculativeState, FiniteMap.get?_insert] at entry
    split at entry
    · exact absurd (Prod.mk.inj (Option.some.inj entry)).2.symm old
    · exact ⟨other, known, entry⟩
  · intro latest id owed found
    rw [record_pending] at found
    split at found
    · next new =>
        refine ⟨key, status, ?_⟩
        rw [record_speculativeState, FiniteMap.get?_insert_self, new.1]
    · obtain ⟨other, known, entry⟩ := latest id owed found
      have apart : other ≠ key := by
        rintro rfl
        rw [idle] at entry
        cases entry
      refine ⟨other, known, ?_⟩
      rw [record_speculativeState, FiniteMap.get?_insert_of_ne _ _ apart, entry]

end AlarmStateCoordinator

/-- The events of a failed iteration on a message fail a confirmation exactly if the shutdown
does. -/
theorem allFailed_append_iff {past answered failed : List Event} {cause : String}
    {pendingConfirmations : FiniteMap Nat Confirmation}
    (unresolved : ∀ id key confirmation answer, .resolved id key confirmation answer ∉ answered)
    (resolves : ∀ event ∈ failed, event.recordKey? = none) :
    AllFailed (past ++ (answered ++ .unrecoverable cause :: failed)) pendingConfirmations
        (answered ++ .unrecoverable cause :: failed) ↔
      AllFailed (past ++ answered) pendingConfirmations failed := by
  have admitted : ∀ id key status confirmation,
      .admitted id key status confirmation ∈ past ++ (answered ++ .unrecoverable cause :: failed) ↔
        .admitted id key status confirmation ∈ past ++ answered := by
    intro id key status confirmation
    simp only [List.mem_append, List.mem_cons, reduceCtorEq, false_or]
    constructor
    · rintro (early | late | last)
      · exact .inl early
      · exact .inr late
      · cases resolves _ last
    · rintro (early | late)
      · exact .inl early
      · exact .inr (.inl late)
  have resolved : ∀ id key confirmation answer,
      .resolved id key confirmation answer ∈ answered ++ .unrecoverable cause :: failed ↔
        .resolved id key confirmation answer ∈ failed := by
    intro id key confirmation answer
    simp [unresolved id key confirmation answer]
  simp only [AllFailed, admitted, resolved]

/-- Once the workflow handler stopped, the next iteration ends the loop and answers everyone
exactly if its message makes the coordinator dispatch a job and every pending confirmation is
that of the latest entry of its key. -/
theorem stop_noticed_iff {hydratedStatuses : FiniteMap Key Status}
    {actions : List CoordinatorLoop.Action} {events : List Event} {loop : CoordinatorLoop}
    (run : CoordinatorLoop.machine.Run Machine.Every (.start hydratedStatuses) actions events loop)
    (running : loop.running = true) (stopped : loop.jobPort.workflowRunning = false)
    (message : DomainInput) (now : Int) :
    (∃ next out, loop.step (.message message now) = some (next, out) ∧ next.running = false ∧
      AllFailed (events ++ out) (loop.coordinator.handleMessage loop.jobPort now
        message).coordinator.pendingConfirmations out) ↔
    loop.coordinator.dispatches message = true ∧ loop.coordinator.PendingLatest := by
  have port : loop.jobPort = ⟨false⟩ := congrArg JobPort.mk stopped
  have kept := CoordinatorLoop.kept run running
  have selects : loop.select (.message message now) =
      some (loop, loop.coordinator.handleMessage ⟨false⟩ now message) := by
    rw [← port]
    rfl
  have fires : loop.step (.message message now) =
      some (loop.finish (loop.coordinator.handleMessage ⟨false⟩ now message)) := by
    simp [CoordinatorLoop.step, running, selects]
  have books := (kept.handles selects).1
  have unresolved := loop.coordinator.handleMessage_unresolved ⟨false⟩ now message
  have outcome := loop.coordinator.handleMessage_stopped now message
  rw [fires, port]
  generalize loop.coordinator.handleMessage ⟨false⟩ now message = handled at *
  rcases outcome with ⟨dispatches, key, status, confirmation, idle, recorded, fails⟩ |
    ⟨spares, succeeds⟩
  · have finished : loop.finish handled = ({ loop with
        coordinator := handled.coordinator.failAllConfirmations.1
        running := false },
        handled.events ++ .unrecoverable workflowHandlerStopped ::
          handled.coordinator.failAllConfirmations.2) := by
      simp [CoordinatorLoop.finish, fails]
    have failed : ∀ event ∈ handled.coordinator.failAllConfirmations.2,
        event.recordKey? = none := by
      intro event member
      obtain ⟨_, _, _, _, _, rfl⟩ := handled.coordinator.mem_failAllConfirmations_iff.mp member
      rfl
    have fresh : loop.coordinator.pendingConfirmations.get? loop.coordinator.idCounter = none := by
      by_contra owed
      obtain ⟨confirmation, owed⟩ := Option.ne_none_iff_exists'.mp owed
      obtain ⟨_, _, issued⟩ := kept.books.ledger.pending_issued owed
      have below := (kept.books.ledger.fresh issued).2
      omega
    rw [finished]
    simp only [Option.some.injEq, Prod.mk.injEq]
    rw [← AlarmStateCoordinator.pendingLatest_record_iff fresh idle, ← recorded,
      ← books.allFailed_iff, ← allFailed_append_iff unresolved failed]
    constructor
    · rintro ⟨_, _, ⟨_, rfl⟩, _, answered⟩
      exact ⟨dispatches, answered⟩
    · rintro ⟨_, answered⟩
      exact ⟨_, _, ⟨rfl, rfl⟩, rfl, answered⟩
  · have finished : (loop.finish handled).1.running = true := by
      simp [CoordinatorLoop.finish, succeeds, running]
    constructor
    · rintro ⟨next, out, same, ended, _⟩
      rw [Option.some.inj same, ended] at finished
      cases finished
    · rintro ⟨dispatches, _⟩
      rw [spares] at dispatches
      cases dispatches

end

section

attribute [local instance] asciiPlatform

/-- The pump is bypassed by an operator, and its job is on its way when the workflow handler
stops. -/
def orphanedBypass : List CoordinatorLoop.Action :=
  [.message (.userUpdate pump (.bypass none) "operator" 7) 0, .workflowStops]

/-- The bypass is ended again while its job is on its way; then the workflow handler stops. -/
def supersededBypass : List CoordinatorLoop.Action :=
  [.message (.userUpdate pump (.bypass none) "operator" 7) 0,
    .message (.userUpdate pump .activate "operator" 8) 0, .workflowStops]

/-- The bypass is pending, as the latest entry of the pump. -/
def CoordinatorLoop.owesBypass (loop : CoordinatorLoop) : Bool :=
  loop.coordinator.pendingConfirmations = FiniteMap.empty.insert 1 7 &&
    (loop.coordinator.speculativeState.get? pump).map Prod.snd = some 1

theorem pending_of_owesBypass {loop : CoordinatorLoop} (owes : loop.owesBypass = true) :
    loop.coordinator.pendingConfirmations.get? 1 = some 7 := by
  simp only [CoordinatorLoop.owesBypass, Bool.and_eq_true, decide_eq_true_eq] at owes
  rw [owes.1]
  rfl

theorem pendingLatest_bypass {loop : CoordinatorLoop} (owes : loop.owesBypass = true) :
    loop.coordinator.PendingLatest := by
  simp only [CoordinatorLoop.owesBypass, Bool.and_eq_true, decide_eq_true_eq,
    Option.map_eq_some_iff] at owes
  obtain ⟨pending, ⟨status, id⟩, latest, rfl⟩ := owes
  intro id confirmation owed
  rw [pending, FiniteMap.get?_insert] at owed
  split at owed
  · next same => exact ⟨pump, status, by rw [latest, same]⟩
  · cases owed

/-- Ending the loop answers the second update of the pump and no other. -/
def CoordinatorLoop.dropsFirst (loop : CoordinatorLoop) : Bool :=
  (loop.step .channelsDropped).any fun reached => !reached.1.running &&
    decide (reached.1.coordinator.pendingConfirmations.get? 1 = none) &&
    decide (reached.2 = [.unrecoverable allChannelsDropped,
      .resolved 2 pump 8 (.error (.internal pump))])

/-- The loop serves a snapshot with the bypass pending. -/
def CoordinatorLoop.servesSnapshot (loop : CoordinatorLoop) : Bool :=
  (loop.step (.message (.snapshotRequest 0) 0)).any fun reached => reached.1.running &&
    decide (reached.1.coordinator.pendingConfirmations.get? 1 = some 7)

/-- The loop admits an update of the pump. -/
def CoordinatorLoop.admitsUpdate (loop : CoordinatorLoop) : Bool :=
  (loop.step (.message (.userUpdate pump .activate "operator" 8) 0)).any fun reached =>
    reached.1.running &&
      reached.2.contains (.admitted 2 pump (buildUserStatus pump .activate "operator" 0) 8)

/-- With a bypass of the pump on its way the shutdown fails it. -/
theorem shutdown_answers_bypass : ∃ (loop next : CoordinatorLoop) (events : List Event),
    CoordinatorLoop.machine.Run Machine.Every (.start .empty) orphanedBypass events loop ∧
    loop.running = true ∧ loop.jobPort.workflowRunning = false ∧
    loop.coordinator.pendingConfirmations.get? 1 = some 7 ∧
    loop.step .channelsDropped = some (next, .unrecoverable allChannelsDropped ::
      loop.coordinator.failAllConfirmations.2) ∧ next.running = false ∧
    AllFailed events loop.coordinator.pendingConfirmations
      loop.coordinator.failAllConfirmations.2 := by
  obtain ⟨loop, events, run, check⟩ := CoordinatorLoop.run_of_check .empty orphanedBypass
    (fun loop _ => loop.running && decide (loop.jobPort.workflowRunning = false) &&
      loop.jobOutcomes.isEmpty && loop.owesBypass) (by decide)
  simp only [Bool.and_eq_true, decide_eq_true_eq, List.isEmpty_iff] at check
  obtain ⟨⟨⟨running, stopped⟩, drained⟩, owes⟩ := check
  have selects : loop.select .channelsDropped =
      some (loop, ⟨loop.coordinator, [], [], some allChannelsDropped⟩) :=
    if_pos ⟨stopped, drained⟩
  obtain ⟨fires, answers⟩ := shutdown_answers_iff run running selects rfl
  have answered := answers.mpr (pendingLatest_bypass owes)
  rw [List.append_nil] at answered
  exact ⟨loop, _, events, run, running, stopped, pending_of_owesBypass owes, fires, rfl, answered⟩

/-- The bypass has been superseded: the shutdown answers the newer update and drops the older
one. -/
theorem shutdown_drops : ∃ (loop next : CoordinatorLoop) (events out : List Event),
    CoordinatorLoop.machine.Run Machine.Every (.start .empty) supersededBypass events loop ∧
    loop.step .channelsDropped = some (next, out) ∧ next.running = false ∧
    loop.coordinator.pendingConfirmations.get? 1 = some 7 ∧
    .admitted 1 pump (buildUserStatus pump (.bypass none) "operator" 0) 7 ∈ events ∧
    next.coordinator.pendingConfirmations.get? 1 = none ∧
    ∀ key answer, .resolved 1 key 7 answer ∉ out := by
  obtain ⟨loop, events, run, check⟩ := CoordinatorLoop.run_of_check .empty supersededBypass
    (fun loop events =>
      decide (loop.coordinator.pendingConfirmations.get? 1 = some 7) &&
      decide (.admitted 1 pump (buildUserStatus pump (.bypass none) "operator" 0) 7 ∈ events) &&
      loop.dropsFirst) (by decide)
  simp only [Bool.and_eq_true, decide_eq_true_eq] at check
  obtain ⟨⟨owed, admitted⟩, dropped⟩ := check
  obtain ⟨⟨next, out⟩, fires, ended⟩ := (Option.any_eq_true _ _).mp dropped
  simp only [Bool.and_eq_true, Bool.not_eq_true', decide_eq_true_eq] at ended
  obtain ⟨⟨stopped, forgotten⟩, rfl⟩ := ended
  refine ⟨loop, next, events, _, run, fires, stopped, owed, admitted, forgotten, ?_⟩
  intro key answer
  simp

/-- An update of another key makes the loop notice that the workflow handler stopped. -/
theorem stop_noticed_beam : ∃ (loop next : CoordinatorLoop) (events out : List Event),
    CoordinatorLoop.machine.Run Machine.Every (.start .empty) orphanedBypass events loop ∧
    loop.running = true ∧ loop.jobPort.workflowRunning = false ∧
    loop.coordinator.pendingConfirmations.get? 1 = some 7 ∧
    loop.step (.message (.automatedUpdate (beam.report .alarmed .high)) 0) = some (next, out) ∧
    next.running = false ∧
    AllFailed (events ++ out) (loop.coordinator.handleMessage loop.jobPort 0
      (.automatedUpdate (beam.report .alarmed .high))).coordinator.pendingConfirmations out := by
  obtain ⟨loop, events, run, check⟩ := CoordinatorLoop.run_of_check .empty orphanedBypass
    (fun loop _ => loop.running && decide (loop.jobPort.workflowRunning = false) &&
      loop.coordinator.dispatches (.automatedUpdate (beam.report .alarmed .high)) &&
      loop.owesBypass) (by decide)
  simp only [Bool.and_eq_true, decide_eq_true_eq] at check
  obtain ⟨⟨⟨running, stopped⟩, dispatches⟩, owes⟩ := check
  obtain ⟨next, out, fires, ended, failed⟩ := (stop_noticed_iff run running stopped
    (.automatedUpdate (beam.report .alarmed .high)) 0).mpr ⟨dispatches, pendingLatest_bypass owes⟩
  exact ⟨loop, next, events, out, run, running, stopped, pending_of_owesBypass owes, fires, ended,
    failed⟩

/-- The workflow handler stopped with the bypass on its way, and the loop goes on serving
snapshots and admitting updates. -/
theorem stop_unnoticed : ∃ (loop served admitting : CoordinatorLoop) (events out more : List Event),
    CoordinatorLoop.machine.Run Machine.Every (.start .empty) orphanedBypass events loop ∧
    loop.jobPort.workflowRunning = false ∧ loop.jobOutcomes.isEmpty = true ∧
    loop.coordinator.pendingConfirmations.get? 1 = some 7 ∧
    loop.step (.message (.snapshotRequest 0) 0) = some (served, out) ∧ served.running = true ∧
    served.coordinator.pendingConfirmations.get? 1 = some 7 ∧
    loop.step (.message (.userUpdate pump .activate "operator" 8) 0) = some (admitting, more) ∧
    admitting.running = true ∧
    .admitted 2 pump (buildUserStatus pump .activate "operator" 0) 8 ∈ more := by
  obtain ⟨loop, events, run, check⟩ := CoordinatorLoop.run_of_check .empty orphanedBypass
    (fun loop _ => decide (loop.jobPort.workflowRunning = false) && loop.jobOutcomes.isEmpty &&
      decide (loop.coordinator.pendingConfirmations.get? 1 = some 7) && loop.servesSnapshot &&
      loop.admitsUpdate) (by decide)
  simp only [Bool.and_eq_true, decide_eq_true_eq] at check
  obtain ⟨⟨⟨⟨stopped, drained⟩, owed⟩, serves⟩, admits⟩ := check
  obtain ⟨⟨served, out⟩, snapshot, serving⟩ := (Option.any_eq_true _ _).mp serves
  obtain ⟨⟨admitting, more⟩, update, running⟩ := (Option.any_eq_true _ _).mp admits
  simp only [Bool.and_eq_true, decide_eq_true_eq, List.contains_iff_mem] at serving running
  exact ⟨loop, served, admitting, events, out, more, run, stopped, drained, owed, snapshot,
    serving.1, serving.2, update, running.1, running.2⟩

end

end AcornAlarms
