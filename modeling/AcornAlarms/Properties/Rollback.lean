import AcornAlarms.Lanes.Rollback

/-!
# What a failed user action leaves behind

A user action that fails is rolled back to what the coordinator last confirmed for its
key, or to the default status when nothing was confirmed. The rollback knows neither the
intent the action replaced nor the inputs that were decided against it.
-/

namespace AcornAlarms

open Library

section

variable [Platform]

/-- The job of a user update the coordinator admits. -/
def AlarmStateCoordinator.userJob (self : AlarmStateCoordinator) (key : Key)
    (action : UserAction) (user : String) (now : Int) : Job :=
  ⟨self.idCounter, key, buildUserStatus key action user now, true⟩

variable {hydratedStatuses : FiniteMap Key Status} {actions : List Action}
  {events out : List Event} {before next : Pipeline} {key : Key} {action : UserAction}
  {user : String} {confirmation : Confirmation} {now : Int}

/-- A snapshot shows a confirmed status unless its state is `Ok` or `Unbypassed`. -/
theorem AlarmStateCoordinator.shows {self : AlarmStateCoordinator} {status : Status} {id : Nat}
    (found : self.confirmedState.get? key = some (status, id))
    (shown : ¬ (status.state.value = .ok ∨ status.state.value = .unbypassed)) :
    status ∈ self.snapshotOf := by
  apply List.mem_filterMap.mpr
  exact ⟨(key, status, id), (FiniteMap.mem_entries_iff _ _ _).mpr found, if_neg shown⟩

theorem buildDefaultStatus_state (key : Key) : (buildDefaultStatus key).state.value = .unknown := rfl

/-- The lanes of a run, with the ledger and the journal of its events. -/
theorem Pipeline.lanes_of_run
    (run : Pipeline.machine.Run Machine.Every (.start hydratedStatuses) actions events before) :
    ∃ lanes, Refines before lanes ∧ Ledger hydratedStatuses events lanes.desk lanes.underway ∧
      Journal hydratedStatuses events lanes :=
  (Refines.initial hydratedStatuses).history run
    (fun past lanes => Ledger hydratedStatuses past lanes.desk lanes.underway ∧
      Journal hydratedStatuses past lanes)
    ⟨Ledger.start hydratedStatuses, Journal.start hydratedStatuses⟩
    (fun both step => ⟨step.ledger both.1, both.2.step step⟩)

/-- An admitted user update becomes the latest intent and owes its confirmation; its job is
dispatched when the key is idle. -/
theorem Lanes.Step.admits {lanes after : Lanes} (step : lanes.Step out after)
    (member : .admitted lanes.desk.idCounter key (buildUserStatus key action user now)
      confirmation ∈ out) :
    after.desk.speculativeState.get? key =
        some (buildUserStatus key action user now, lanes.desk.idCounter) ∧
      after.desk.pendingConfirmations.get? lanes.desk.idCounter = some confirmation ∧
      after.desk.confirmedOrDefault key = lanes.desk.confirmedOrDefault key ∧
      ((lanes.stage key = .idle ∧
          after.stage key = .queued (lanes.desk.userJob key action user now)) ∨
        (∃ job, lanes.underway key = some job) ∧ after.stage = lanes.stage) := by
  obtain ⟨status, given, same, desk, stage⟩ := step.recorded member rfl
  have given_eq : given = some confirmation ∧ status = buildUserStatus key action user now := by
    cases given with
    | none => cases same
    | some other =>
        simp only [AlarmStateCoordinator.recordEvent, Event.admitted.injEq, true_and] at same
        exact ⟨by rw [same.2], same.1.symm⟩
  obtain ⟨rfl, rfl⟩ := given_eq
  have owed : after.desk.pendingConfirmations.get? lanes.desk.idCounter = some confirmation := by
    rw [desk, AlarmStateCoordinator.record_pending, if_pos ⟨rfl, rfl⟩]
  refine ⟨?_, owed, ?_, stage.imp_left fun started => ⟨started.1, ?_⟩⟩
  · rw [desk, AlarmStateCoordinator.record_speculativeState, FiniteMap.get?_insert_self]
  · rw [desk]
    rfl
  · rw [started.2, Function.update_self, FiniteMap.contains, owed]
    rfl

/-- A user action on an idle key is attempted. -/
theorem Refines.attempts {lanes : Lanes} (refines : Refines before lanes)
    (idle : before.coordinator.speculativeState.get? key = none)
    (allowed : before.coordinator.allows key action = true)
    (accepts : before.step (.input (.userUpdate key action user confirmation) now) =
      some (next, out)) :
    ∃ after, Refines next after ∧ lanes.Step out after ∧ (after.stage key).unwritten = [] ∧
      Attempt key (before.coordinator.userJob key action user now)
        (before.coordinator.confirmedOrDefault key) [] [] after := by
  obtain ⟨other, events, fires, member⟩ := refines.admits allowed user confirmation now
  rw [accepts, Option.some.injEq, Prod.mk.injEq] at fires
  obtain ⟨rfl, rfl⟩ := fires
  obtain ⟨after, step, refinesAfter⟩ := refines.step accepts
  rw [refines.desk] at member ⊢
  obtain ⟨latest, _, base, ⟨_, queued⟩ | ⟨⟨job, under⟩, _⟩⟩ := step.admits member
  · refine ⟨after, refinesAfter, step, by rw [queued]; rfl,
      .pursued ⟨?_, latest, base, rfl⟩ List.not_mem_nil⟩
    rw [Lanes.underway, queued]
    rfl
  · rw [Lanes.underway, refines.idle_of_outstanding (refines.outstanding_nil idle)] at under
    cases under

/-- A user action on an idle key fails, and nothing else is recorded for the key. The key is
left as it was confirmed before, and only that status is published for it; a key without
a confirmed entry is left with the default status, published and confirmed. -/
theorem failed_action_restores {undisturbed : List Action} {later : List Event}
    {final : Pipeline}
    (run : Pipeline.machine.Run Machine.Every (.start hydratedStatuses) actions events before)
    (idle : before.coordinator.speculativeState.get? key = none)
    (allowed : before.coordinator.allows key action = true)
    (accepts : before.step (.input (.userUpdate key action user confirmation) now) =
      some (next, out))
    (rest : Pipeline.machine.Run (Pipeline.Undisturbed key) next undisturbed later final)
    (failed : .failed (before.coordinator.userJob key action user now) ∈ later) :
    (∀ entry, before.coordinator.confirmedState.get? key = some entry →
      (∀ status ∈ deliveredOf key later, status = entry.1) ∧
        (final.outstanding key = [] →
          final.coordinator.confirmedState.get? key = some entry)) ∧
    (before.coordinator.confirmedState.get? key = none →
      (∀ status ∈ deliveredOf key later, status = buildDefaultStatus key) ∧
        (final.outstanding key = [] →
          final.coordinator.confirmedState.get? key =
              some (buildDefaultStatus key, defaultHydratedId) ∧
            deliveredOf key later = [buildDefaultStatus key] ∧
            buildDefaultStatus key ∈ final.coordinator.snapshotOf)) := by
  obtain ⟨lanes, refines, ledger, _⟩ := Pipeline.lanes_of_run run
  obtain ⟨after, refinesNext, step, empty, attempt⟩ := refines.attempts idle allowed accepts
  obtain ⟨last, refinesFinal, _, attempted, balanced⟩ := refinesNext.undisturbed
    (step.ledger ledger) rest
    (fun past lanes =>
      Attempt key (before.coordinator.userJob key action user now)
        (before.coordinator.confirmedOrDefault key) [] past lanes ∧
      deliveredOf key past = writtenOf key past ++ (lanes.stage key).unwritten)
    ⟨attempt, by rw [empty]; rfl⟩
    (fun both ledger step unrecorded =>
      ⟨both.1.step rfl rfl ledger step unrecorded, step.balanced [] both.2⟩)
  have stands := attempted.stands_failed refinesFinal failed
  obtain ⟨some, all⟩ := attempted.delivered_failed balanced failed
  have shown : ∀ status ∈ deliveredOf key later,
      status = (before.coordinator.confirmedOrDefault key).1 := by
    intro status member
    rcases some with none | one
    · rw [none] at member
      exact absurd member List.not_mem_nil
    · rw [one] at member
      exact List.mem_singleton.mp member
  constructor
  · intro entry found
    rw [confirmedOrDefault_of_confirmed found] at shown stands
    exact ⟨shown, stands.confirmed⟩
  · intro missing
    have default : before.coordinator.confirmedOrDefault key =
        (buildDefaultStatus key, defaultHydratedId) := by
      rw [AlarmStateCoordinator.confirmedOrDefault, missing]
      rfl
    rw [default] at shown stands all
    refine ⟨shown, fun quiet => ?_⟩
    have confirmed := stands.confirmed quiet
    refine ⟨confirmed, all (refinesFinal.idle_of_outstanding quiet), ?_⟩
    exact AlarmStateCoordinator.shows confirmed (by simp [buildDefaultStatus_state])

end

section

attribute [local instance] asciiPlatform

/-- One EPICS device, hydrated without an alarm. -/
def quietBeam : FiniteMap Key Status := FiniteMap.empty.insert beam (beam.report .ok .unknown)

/-- A bypass of a device that was never heard of, all publishes of which fail. -/
def failedBypass : List Action :=
  [.input (.userUpdate pump (.bypass none) "operator" 10) 0] ++ Pipeline.carry ⟨0, 0⟩ ++
    Pipeline.giveUp ++ Pipeline.carry ⟨0, 0⟩ ++ Pipeline.commit

/-- The failed bypass publishes, confirms and shows the default status of the device. -/
theorem failed_action_publishes_default :
    ∃ (final : Pipeline) (events : List Event),
      Pipeline.machine.Run Pipeline.Prioritized (.start .empty) failedBypass events final ∧
      (Pipeline.start .empty).coordinator.confirmedState.get? pump = none ∧
      .failed ⟨1, pump, buildUserStatus pump (.bypass none) "operator" 0, true⟩ ∈ events ∧
      final.outstanding pump = [] ∧
      deliveredOf pump events = [buildDefaultStatus pump] ∧
      final.coordinator.confirmedState.get? pump = some (buildDefaultStatus pump, 0) ∧
      final.coordinator.snapshotOf = [buildDefaultStatus pump] := by
  obtain ⟨final, events, run, check⟩ := Pipeline.run_of_check .empty failedBypass
    (fun final events =>
      .failed ⟨1, pump, buildUserStatus pump (.bypass none) "operator" 0, true⟩ ∈ events ∧
      final.outstanding pump = [] ∧
      deliveredOf pump events = [buildDefaultStatus pump] ∧
      final.coordinator.confirmedState.get? pump = some (buildDefaultStatus pump, 0) ∧
      final.coordinator.snapshotOf = [buildDefaultStatus pump]) (by decide)
  simp only [decide_eq_true_eq] at check
  exact ⟨final, events, run, rfl, check⟩

/-- The bypass of the quiet device failed and nothing of the device is outstanding. -/
def bypassGivenUp (final : Pipeline) (later : List Event) : Bool :=
  decide (final.outstanding beam = [] ∧
    .failed ((Pipeline.start quietBeam).coordinator.userJob beam (.bypass none) "operator" 0) ∈
      later)

/-- A bypass of a device with a confirmed status fails and leaves that status. -/
theorem failed_action_restores_hydrated :
    ∃ (next final : Pipeline) (out later : List Event),
      (Pipeline.start quietBeam).step (.input (.userUpdate beam (.bypass none) "operator" 10) 0) =
        some (next, out) ∧
      Pipeline.machine.Run (Pipeline.Undisturbed beam) next
        (Pipeline.carry ⟨0, 0⟩ ++ Pipeline.giveUp ++ Pipeline.carry ⟨0, 0⟩ ++ Pipeline.commit)
        later final ∧
      .failed ((Pipeline.start quietBeam).coordinator.userJob beam (.bypass none) "operator" 0) ∈
        later ∧
      (∀ status ∈ deliveredOf beam later, status = beam.report .ok .unknown) ∧
      final.coordinator.confirmedState.get? beam = some (beam.report .ok .unknown, 0) := by
  obtain ⟨next, out, accepts, continues⟩ := Pipeline.machine.step_of_check (.start quietBeam)
    (.input (.userUpdate beam (.bypass none) "operator" 10) 0)
    (fun next _ => (Pipeline.machine.exec
      (fun state action => decide (state.records action ≠ some beam)) next
      (Pipeline.carry ⟨0, 0⟩ ++ Pipeline.giveUp ++ Pipeline.carry ⟨0, 0⟩ ++ Pipeline.commit)).any
        fun reached => bypassGivenUp reached.1 reached.2) (by decide)
  obtain ⟨final, later, rest, check⟩ := Pipeline.undisturbed_of_check beam next _ bypassGivenUp
    continues
  obtain ⟨quiet, failed⟩ := of_decide_eq_true check
  have accepts : (Pipeline.start quietBeam).step
      (.input (.userUpdate beam (.bypass none) "operator" 10) 0) = some (next, out) := accepts
  obtain ⟨kept, _⟩ := failed_action_restores .refl (by decide) (by decide) accepts rest failed
  obtain ⟨shown, confirmed⟩ := kept (beam.report .ok .unknown, 0) (by decide)
  exact ⟨next, final, out, later, accepts, rest, failed, shown, confirmed quiet⟩

end

section

variable [Platform]

variable {hydratedStatuses : FiniteMap Key Status} {actions : List Action}
  {events out : List Event} {before next : Pipeline} {key : Key} {now : Int}

/-- When a user job fails as the latest intent, the status last published for its key becomes
the latest one, and the confirmed one once the key is at rest, whatever the job had
replaced. An intent recorded after it stays the latest one. -/
theorem rollback_restores_published {job : Job}
    (run : Pipeline.machine.Run Machine.Every (.start hydratedStatuses) actions events before)
    (fires : before.step (.jobOutcome now) = some (next, out))
    (failed : .failed job ∈ out) (initiated : job.userInitiated = true) :
    (∀ status, before.coordinator.speculativeState.get? job.key = some (status, job.id) →
      ∃ entry, entry.1 = lastPublished hydratedStatuses events job.key ∧
        ∀ undisturbed later final,
          Pipeline.machine.Run (Pipeline.Undisturbed job.key) next undisturbed later final →
          final.Stands job.key entry) ∧
    (∀ status id, before.coordinator.speculativeState.get? job.key = some (status, id) →
      id ≠ job.id →
      next.coordinator.speculativeState.get? job.key = some (status, id)) := by
  obtain ⟨lanes, refines, ledger, journal⟩ := Pipeline.lanes_of_run run
  obtain ⟨after, step, refinesNext⟩ := refines.step fires
  obtain ⟨arrived, quiet⟩ := step.fails failed
  have unrecorded : ∀ event ∈ out, event.recordKey? ≠ some job.key := by
    intro event member
    simp [quiet event member]
  constructor
  · intro status latest
    refine ⟨lanes.desk.confirmedOrDefault job.key, journal.restores (by rw [arrived]; rfl), ?_⟩
    intro undisturbed later final rest
    -- The job carries the status of the latest intent, since both have its id.
    rw [refines.desk] at latest
    have named := ledger.names (ledger.latest latest)
      (ledger.job (Lanes.underway_settled arrived)).2
    rw [named] at latest
    have attempt : Attempt job.key job (lanes.desk.confirmedOrDefault job.key) [] [] lanes :=
      .pursued ⟨Lanes.underway_settled arrived, latest, rfl, rfl⟩ List.not_mem_nil
    obtain ⟨last, refinesFinal, _, attempted⟩ := refinesNext.undisturbed (step.ledger ledger) rest
      (fun past lanes' =>
        Attempt job.key job (lanes.desk.confirmedOrDefault job.key) [] (out ++ past) lanes')
      (by
        rw [List.append_nil]
        exact attempt.step rfl initiated ledger step unrecorded)
      (by
        intro past lanes' out' next' attempted ledger' step' unrecorded'
        rw [← List.append_assoc]
        exact attempted.step rfl initiated ledger' step' unrecorded')
    exact attempted.stands_failed refinesFinal (List.mem_append_left _ failed)
  · intro status id latest newer
    rw [refines.desk] at latest
    rw [refinesNext.desk]
    cases step.view unrecorded with
    | stays _ _ _ _ unsettled => exact absurd failed (unsettled job rfl).1
    | commitLast _ _ _ _ _ _ unfailed | commitNext _ _ _ _ _ _ _ _ _ unfailed =>
        exact absurd failed (unfailed job)
    | fails _ found chosen kept _ _ _ same _ =>
        obtain rfl := (same job).mp failed
        rw [latest] at found
        obtain ⟨rfl, rfl⟩ := Prod.mk.inj (Option.some.inj found)
        rw [if_neg fun both => newer both.1] at chosen
        rw [kept, chosen]

end

section

attribute [local instance] asciiPlatform

/-- An alarm and its acknowledgement, all publishes of which fail, up to the reconciliation of
the acknowledgement. -/
def failedAcknowledgement : List Action :=
  [.input (.automatedUpdate (beam.report .alarmed .high)) 0,
    .input (.userUpdate beam .acknowledge "operator" 10) 0] ++
  Pipeline.carry ⟨0, 0⟩ ++
  [.completion 0 false, .completion 0 false, .flush, .publishOutcome, .jobOutcome 0] ++
  Pipeline.carry ⟨0, 0⟩ ++ [.completion 0 false, .completion 0 false, .publishOutcome]

/-- The acknowledgement replaces the alarm, and its rollback restores neither. -/
theorem displaced_alarm_lost :
    ∃ (final : Pipeline) (events : List Event),
      Pipeline.machine.Run Pipeline.Prioritized (.start quietBeam)
        (failedAcknowledgement ++ [.jobOutcome 0] ++ Pipeline.carry ⟨0, 0⟩ ++ Pipeline.commit)
        events final ∧
      .recorded 1 beam (beam.report .alarmed .high) ∈ events ∧
      .admitted 2 beam (buildUserStatus beam .acknowledge "operator" 0) 10 ∈ events ∧
      .failed ⟨2, beam, buildUserStatus beam .acknowledge "operator" 0, true⟩ ∈ events ∧
      final.outstanding beam = [] ∧
      final.coordinator.getLatestStatus beam = some (beam.report .ok .unknown) ∧
      (final.coordinator.confirmedState.get? beam).map Prod.fst =
        some (beam.report .ok .unknown) ∧
      deliveredOf beam events = [beam.report .ok .unknown] := by
  obtain ⟨final, events, run, check⟩ := Pipeline.run_of_check quietBeam
    (failedAcknowledgement ++ [.jobOutcome 0] ++ Pipeline.carry ⟨0, 0⟩ ++ Pipeline.commit)
    (fun final events =>
      .recorded 1 beam (beam.report .alarmed .high) ∈ events ∧
      .admitted 2 beam (buildUserStatus beam .acknowledge "operator" 0) 10 ∈ events ∧
      .failed ⟨2, beam, buildUserStatus beam .acknowledge "operator" 0, true⟩ ∈ events ∧
      final.outstanding beam = [] ∧
      final.coordinator.getLatestStatus beam = some (beam.report .ok .unknown) ∧
      (final.coordinator.confirmedState.get? beam).map Prod.fst =
        some (beam.report .ok .unknown) ∧
      deliveredOf beam events = [beam.report .ok .unknown]) (by decide)
  simp only [decide_eq_true_eq] at check
  exact ⟨final, events, run, check⟩

/-- The rollback of the acknowledgement restores the hydrated status. -/
theorem rollback_restores_published_hydrated :
    ∃ (before next : Pipeline) (events out : List Event) (entry : Status × Nat),
      Pipeline.machine.Run Machine.Every (.start quietBeam) failedAcknowledgement events before ∧
      before.step (.jobOutcome 0) = some (next, out) ∧
      .failed ⟨2, beam, buildUserStatus beam .acknowledge "operator" 0, true⟩ ∈ out ∧
      entry.1 = beam.report .ok .unknown ∧ next.Stands beam entry := by
  obtain ⟨before, events, run, check⟩ := Pipeline.run_of_check quietBeam failedAcknowledgement
    (fun before events =>
      before.coordinator.speculativeState.get? beam =
        some (buildUserStatus beam .acknowledge "operator" 0, 2) ∧
      deliveredOf beam events = [] ∧
      (before.step (.jobOutcome 0)).any fun reached =>
        .failed ⟨2, beam, buildUserStatus beam .acknowledge "operator" 0, true⟩ ∈ reached.2)
    (by decide)
  obtain ⟨latest, silent, continues⟩ := of_decide_eq_true check
  obtain ⟨next, out, fires, failed⟩ := Pipeline.machine.step_of_check before (.jobOutcome 0)
    (fun _ out => .failed ⟨2, beam, buildUserStatus beam .acknowledge "operator" 0, true⟩ ∈ out)
    continues
  have fires : before.step (.jobOutcome 0) = some (next, out) := fires
  have failed := of_decide_eq_true failed
  obtain ⟨restores, _⟩ := rollback_restores_published run.forget fires failed rfl
  obtain ⟨entry, same, stands⟩ := restores _ latest
  refine ⟨before, next, events, out, entry, run.forget, fires, failed, ?_, stands [] [] next .refl⟩
  rw [same, lastPublished, silent]
  rfl

end

section

variable [Platform]

variable {hydratedStatuses : FiniteMap Key Status} {actions : List Action}
  {events : List Event} {before : Pipeline} {key : Key}

/-- Decisions taken against the status of a user job under way are not taken again when it
fails: a suppressed automated update or wake-up changes nothing, then or later, and an
accepted user action follows the failed job and stands unless it fails itself. -/
theorem decisions_stand {front : Job}
    (run : Pipeline.machine.Run Machine.Every (.start hydratedStatuses) actions events before)
    (latest : before.coordinator.speculativeState.get? key = some (front.status, front.id))
    (under : front ∈ before.outstanding key) (initiated : front.userInitiated = true) :
    (∀ status now, before.coordinator.publishes status = false →
      before.step (.input (.automatedUpdate status) now) = some (before, [])) ∧
    (∀ now rest, before.jobOutcomes = .wake key :: rest →
      before.coordinator.publishes (buildWakeStatus key now) = false →
      before.step (.jobOutcome now) = some ({ before with jobOutcomes := rest }, [.woke key])) ∧
    (∀ undisturbed later final,
      Pipeline.machine.Run (Pipeline.Undisturbed key) before undisturbed later final →
      .failed front ∈ later →
      final.Stands key (before.coordinator.confirmedOrDefault key)) ∧
    (∀ action user confirmation now, before.coordinator.allows key action = true →
      ∃ next out, before.step (.input (.userUpdate key action user confirmation) now) =
          some (next, out) ∧
        ∀ undisturbed later final,
          Pipeline.machine.Run (Pipeline.Undisturbed key) next undisturbed later final →
          .failed front ∈ later →
          .dispatched (before.coordinator.userJob key action user now) ∈ later ∧
          (.failed (before.coordinator.userJob key action user now) ∉ later →
            final.Stands key
              (buildUserStatus key action user now, before.coordinator.idCounter))) := by
  obtain ⟨lanes, refines, ledger, _⟩ := Pipeline.lanes_of_run run
  have underway : lanes.underway key = some front := refines.mem_outstanding.mp under
  have frontKey : front.key = key := lanes.owned underway
  refine ⟨fun status now suppressed => refines.suppresses suppressed now,
    fun now rest queue suppressed => refines.suppressesWake queue suppressed, ?_, ?_⟩
  · intro undisturbed later final rest failed
    rw [refines.desk] at latest ⊢
    obtain ⟨last, refinesFinal, _, attempted⟩ := refines.undisturbed ledger rest
      (Attempt key front (lanes.desk.confirmedOrDefault key) [])
      (.pursued ⟨underway, latest, rfl, rfl⟩ List.not_mem_nil)
      (fun attempt ledger step unrecorded =>
        attempt.step frontKey initiated ledger step unrecorded)
    exact attempted.stands_failed refinesFinal failed
  · intro action user confirmation now allowed
    obtain ⟨next, out, accepts, member⟩ := refines.admits allowed user confirmation now
    refine ⟨next, out, accepts, ?_⟩
    intro undisturbed later final rest failed
    obtain ⟨after, step, refinesNext⟩ := refines.step accepts
    rw [refines.desk] at member latest ⊢
    obtain ⟨recorded, owed, base, ⟨idle, _⟩ | ⟨_, stage⟩⟩ := step.admits member
    · rw [Lanes.underway, idle] at underway
      cases underway
    · have newer : lanes.desk.idCounter ≠ front.id :=
        (Nat.ne_of_lt (ledger.below (ledger.latest latest))).symm
      have waits : Waits key front (lanes.desk.userJob key action user now)
          (lanes.desk.confirmedOrDefault key) [] [] after :=
        ⟨by rw [Lanes.underway, stage]; exact underway, recorded, newer, ⟨confirmation, owed⟩, base,
          rfl⟩
      obtain ⟨last, refinesFinal, _, succession⟩ := refinesNext.undisturbed (step.ledger ledger)
        rest
        (Succession key front (lanes.desk.userJob key action user now)
          (lanes.desk.confirmedOrDefault key) [])
        (.waits waits List.not_mem_nil List.not_mem_nil)
        (fun succession ledger step unrecorded =>
          succession.step rfl rfl newer frontKey ledger step unrecorded)
      exact ⟨succession.dispatched failed, fun unfailed => succession.stands refinesFinal unfailed⟩

end

section

attribute [local instance] asciiPlatform

/-- The job of a bypass of the quiet device. -/
def beamBypass : Job := ⟨1, beam, buildUserStatus beam (.bypass none) "operator" 0, true⟩

/-- An operator bypasses the quiet device. -/
def beginBypass : List Action := [.input (.userUpdate beam (.bypass none) "operator" 10) 0]

/-- An alarm that the bypass suppressed, and that is news to the status the rollback restored,
is lost. -/
def alarmLost (final : Pipeline) (later : List Event) : Bool :=
  decide (.failed beamBypass ∈ later ∧ final.outstanding beam = [] ∧
    final.coordinator.getLatestStatus beam = some (beam.report .ok .unknown) ∧
    shouldPublish (final.coordinator.getLatestStatus beam) (beam.report .alarmed .high) = true)

/-- An activation the bypass made possible is committed though the restored status refuses
it. -/
def activationCommitted (final : Pipeline) (later : List Event) : Bool :=
  decide (.failed beamBypass ∈ later ∧ final.outstanding beam = [] ∧
    final.coordinator.confirmedState.get? beam =
      some (buildUserStatus beam .activate "operator" 0, 2))

/-- A bypass under way decides an alarm and an activation, and then fails. -/
theorem decision_outlives_rollback :
    ∃ (middle : Pipeline) (events : List Event),
      Pipeline.machine.Run Pipeline.Prioritized (.start quietBeam) beginBypass events middle ∧
      beamBypass ∈ middle.outstanding beam ∧
      middle.coordinator.speculativeState.get? beam = some (beamBypass.status, beamBypass.id) ∧
      middle.coordinator.publishes (beam.report .alarmed .high) = false ∧
      (∃ final later, Pipeline.machine.Run Pipeline.Prioritized middle
        ([.input (.automatedUpdate (beam.report .alarmed .high)) 0] ++ Pipeline.carry ⟨0, 0⟩ ++
          Pipeline.giveUp ++ Pipeline.carry ⟨0, 0⟩ ++ Pipeline.commit) later final ∧
        alarmLost final later = true) ∧
      middle.coordinator.allows beam .activate = true ∧
      userActionAllowed .ok none .activate = false ∧
      (∃ final later, Pipeline.machine.Run Pipeline.Prioritized middle
        ([.input (.userUpdate beam .activate "operator" 11) 0] ++ Pipeline.carry ⟨0, 0⟩ ++
          Pipeline.giveUp ++ Pipeline.carry ⟨0, 0⟩ ++
          [.completion 0 true, .publishOutcome, .jobOutcome 0]) later final ∧
        activationCommitted final later = true) := by
  obtain ⟨middle, events, run, check⟩ := Pipeline.run_of_check quietBeam beginBypass
    (fun middle _ =>
      beamBypass ∈ middle.outstanding beam ∧
      middle.coordinator.speculativeState.get? beam = some (beamBypass.status, beamBypass.id) ∧
      middle.coordinator.publishes (beam.report .alarmed .high) = false ∧
      ((Pipeline.machine.exec Pipeline.prioritized middle
        ([.input (.automatedUpdate (beam.report .alarmed .high)) 0] ++ Pipeline.carry ⟨0, 0⟩ ++
          Pipeline.giveUp ++ Pipeline.carry ⟨0, 0⟩ ++ Pipeline.commit)).any
          fun reached => alarmLost reached.1 reached.2) = true ∧
      middle.coordinator.allows beam .activate = true ∧
      ((Pipeline.machine.exec Pipeline.prioritized middle
        ([.input (.userUpdate beam .activate "operator" 11) 0] ++ Pipeline.carry ⟨0, 0⟩ ++
          Pipeline.giveUp ++ Pipeline.carry ⟨0, 0⟩ ++
          [.completion 0 true, .publishOutcome, .jobOutcome 0])).any
          fun reached => activationCommitted reached.1 reached.2) = true) (by decide)
  obtain ⟨under, latest, suppressed, lost, allowed, committed⟩ := of_decide_eq_true check
  exact ⟨middle, events, run, under, latest, suppressed,
    Pipeline.prioritized_of_check middle _ alarmLost lost, allowed, rfl,
    Pipeline.prioritized_of_check middle _ activationCommitted committed⟩

/-- The alarm leaves the pipeline as it was, and the activation follows the bypass. -/
theorem decisions_stand_bypass :
    ∃ (middle next : Pipeline) (events out : List Event),
      Pipeline.machine.Run Machine.Every (.start quietBeam) beginBypass events middle ∧
      middle.step (.input (.automatedUpdate (beam.report .alarmed .high)) 0) =
        some (middle, []) ∧
      middle.step (.input (.userUpdate beam .activate "operator" 11) 0) = some (next, out) ∧
      ∀ undisturbed later final,
        Pipeline.machine.Run (Pipeline.Undisturbed beam) next undisturbed later final →
        .failed beamBypass ∈ later →
        .dispatched (middle.coordinator.userJob beam .activate "operator" 0) ∈ later := by
  obtain ⟨middle, events, run, check⟩ := Pipeline.run_of_check quietBeam beginBypass
    (fun middle _ =>
      beamBypass ∈ middle.outstanding beam ∧
      middle.coordinator.speculativeState.get? beam = some (beamBypass.status, beamBypass.id) ∧
      middle.coordinator.publishes (beam.report .alarmed .high) = false ∧
      middle.coordinator.allows beam .activate = true) (by decide)
  obtain ⟨under, latest, suppressed, allowed⟩ := of_decide_eq_true check
  obtain ⟨changesNothing, _, _, follows⟩ := decisions_stand run.forget latest under rfl
  obtain ⟨next, out, accepts, stands⟩ := follows .activate "operator" 11 0 allowed
  exact ⟨middle, next, events, out, run.forget, changesNothing _ 0 suppressed, accepts,
    fun undisturbed later final rest failed => (stands undisturbed later final rest failed).1⟩

end

end AcornAlarms
