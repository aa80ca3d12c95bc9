import AcornAlarms.Adapters.Redis
import AcornAlarms.Lanes.Reference

/-!
# What snapshots show after an update from Redis

Once the last update of a key is settled, an alarm is shown and a key that is well is not. A
latched alarm stays shown until a user acknowledges it.
-/

namespace AcornAlarms

open Library

section

variable [Platform]

namespace AlarmStateCoordinator

/-- The status a snapshot shows for a key. -/
def shown (self : AlarmStateCoordinator) (key : Key) : Option Status :=
  ((self.confirmedState.get? key).map Prod.fst).filter fun status =>
    status.state.value ≠ .ok && status.state.value ≠ .unbypassed

/-- A snapshot is what is shown for the keys. -/
theorem mem_snapshotOf_iff (self : AlarmStateCoordinator) (status : Status) :
    status ∈ self.snapshotOf ↔ ∃ key, self.shown key = some status := by
  simp only [snapshotOf, shown, List.mem_filterMap, Prod.exists, FiniteMap.mem_entries_iff,
    Option.ite_none_left_eq_some, Option.some.injEq, Option.filter_eq_some_iff,
    Option.map_eq_some_iff, Bool.and_eq_true, decide_eq_true_eq, not_or]
  constructor
  · rintro ⟨key, shown, id, confirmed, visible, rfl⟩
    exact ⟨key, ⟨shown, id, confirmed, rfl⟩, visible⟩
  · rintro ⟨key, ⟨shown, id, confirmed, rfl⟩, visible⟩
    exact ⟨key, shown, id, confirmed, visible, rfl⟩

end AlarmStateCoordinator

/-- The latest status of a key after an automated update of it. -/
def afterUpdate (held : Option Status) (status : Status) : Option Status :=
  if shouldPublish held status then some status else held

theorem Reference.after_automated (reference : Reference) (status : Status) :
    reference.after (Intake.verdict (reference (Key.from status)) (.automated status))
        (Key.from status) = afterUpdate (reference (Key.from status)) status := by
  rw [Intake.verdict, afterUpdate]
  by_cases accepted : shouldPublish (reference (Key.from status)) status = true
  · rw [if_pos accepted, if_pos accepted, after, Function.update_self]
  · rw [if_neg accepted, if_neg accepted, after]

section

variable {held : Option Status} {status : Status}

omit [Platform] in
/-- Without a bypass an update is the latest status, or it found one of its severity from which
it is no transition. -/
theorem afterUpdate_cases (free : ¬ (status.source.value = .epics ∧ isBypassed held = true)) :
    afterUpdate held status = some status ∨
      ∃ kept, held = some kept ∧ afterUpdate held status = some kept ∧
        kept.severity.value = status.severity.value ∧
        transitionAllowed kept.state.value status.state.value = false := by
  cases accepted : shouldPublish held status with
  | true => exact .inl (if_pos accepted)
  | false =>
      obtain ⟨kept, same, why⟩ := suppressed_cases accepted
      rcases why with ⟨bypassed, epics, _⟩ | ⟨transition, severity⟩
      · exact absurd ⟨epics, by simp [isBypassed, same, bypassed]⟩ free
      · exact .inr ⟨kept, same, by rw [afterUpdate, accepted, same]; rfl, severity, transition⟩

omit [Platform] in
/-- An alarm leaves an alarm of its severity, unless the key waits unbypassed with it. -/
theorem afterUpdate_alarmed (free : ¬ (status.source.value = .epics ∧ isBypassed held = true))
    (alarmed : status.state.value = .alarmed)
    (apart : ∀ kept, held = some kept → kept.state.value = .unbypassed →
      kept.severity.value ≠ status.severity.value) :
    ∃ shown, afterUpdate held status = some shown ∧
      (shown.state.value = .alarmed ∨ shown.state.value = .latched) ∧
      shown.severity.value = status.severity.value := by
  rcases afterUpdate_cases free with taken | ⟨kept, same, stays, severity, transition⟩
  · exact ⟨status, taken, .inl alarmed, rfl⟩
  · refine ⟨kept, stays, ?_, severity⟩
    rcases transition_suppressed transition (.inr alarmed) with state | latched | unbypassed
    · exact .inl (state.trans alarmed)
    · exact .inr latched
    · exact absurd severity (apart kept same unbypassed)

/-- An update that all is well leaves nothing to show, unless an alarm without a severity is
latched, which stays. -/
theorem afterUpdate_ok (free : ¬ (status.source.value = .epics ∧ isBypassed held = true))
    (redis : FromRedis status) (well : status.state.value = .ok) :
    (∃ hidden, afterUpdate held status = some hidden ∧
      (hidden.state.value = .ok ∨ hidden.state.value = .unbypassed)) ∨
    ∃ kept, held = some kept ∧ kept.state.value = .latched ∧ kept.severity.value = .unknown := by
  have unknown : status.severity.value = .unknown := by
    cases redis.reading with
    | ok _ severity | unknown _ severity => exact severity
    | alarmed state _ => simp [well] at state
  rcases afterUpdate_cases free with taken | ⟨kept, same, stays, severity, transition⟩
  · exact .inl ⟨status, taken, .inl well⟩
  · rcases transition_suppressed transition (.inl well) with state | latched | unbypassed
    · exact .inl ⟨kept, stays, .inl (state.trans well)⟩
    · exact .inr ⟨kept, same, latched, severity.trans unknown⟩
    · exact .inl ⟨kept, stays, .inr unbypassed⟩

/-- An update that all is well does not end a latched alarm without a severity. -/
theorem afterUpdate_latched {kept : Status} (redis : FromRedis status)
    (well : status.state.value = .ok) (latched : kept.state.value = .latched)
    (unknown : kept.severity.value = .unknown) : afterUpdate (some kept) status = some kept := by
  have severity : status.severity.value = .unknown := by
    cases redis.reading with
    | ok _ severity | unknown _ severity => exact severity
    | alarmed state _ => simp [well] at state
  simp [afterUpdate, shouldPublish, isBypassed, transitionAllowed, latched, unknown, well, severity]

end

variable {hydratedStatuses : FiniteMap Key Status} {before middle final : Pipeline}
  {actions more : List Action} {events out later : List Event}

/-- The last input of a key was an update from Redis, which no bypass of an EPICS key stood
against, and the key is settled. An alarm is then shown with its severity, unless the key was
waiting unbypassed with that severity. A key that is well is not shown, unless an alarm without
a severity was latched, which stays. -/
theorem redis_update_shown {admits : List Event → Pipeline → Action → Prop} {status : Status}
    {now : Int} (redis : FromRedis status)
    (run : Pipeline.machine.Run admits (.start hydratedStatuses) actions events before)
    (free : ¬ ((Key.from status).source = .epics ∧
      isBypassed (before.coordinator.getLatestStatus (Key.from status)) = true))
    (fires : before.step (.input (.automatedUpdate status) now) = some (middle, out))
    (rest : Pipeline.machine.Run (Pipeline.Untaken (Key.from status)) middle more later final)
    (unfailed : Unfailed later) (quiet : final.outstanding (Key.from status) = []) :
    (status.state.value = .alarmed →
      (∀ held, before.coordinator.getLatestStatus (Key.from status) = some held →
        held.state.value = .unbypassed → held.severity.value ≠ status.severity.value) →
      ∃ shown, final.coordinator.shown (Key.from status) = some shown ∧
        (shown.state.value = .alarmed ∨ shown.state.value = .latched) ∧
        shown.severity.value = status.severity.value) ∧
    (status.state.value = .ok →
      (∀ held, before.coordinator.getLatestStatus (Key.from status) = some held →
        held.state.value = .latched → held.severity.value ≠ .unknown) →
      final.coordinator.shown (Key.from status) = none) ∧
    (status.state.value = .ok → ∀ held,
      before.coordinator.getLatestStatus (Key.from status) = some held →
      held.state.value = .latched → held.severity.value = .unknown →
      final.coordinator.shown (Key.from status) = some held) := by
  obtain ⟨lanes, refines, ledger⟩ := Pipeline.ledger run
  obtain ⟨nextLanes, step, after⟩ := refines.step fires
  obtain ⟨verdict, latest, _⟩ :=
    refines.takes fires (rfl : before.intake _ = some (.automated status))
  -- The update decides the latest status, which nothing changes until it is confirmed.
  have confirmed : (final.coordinator.confirmedState.get? (Key.from status)).map Prod.fst =
      afterUpdate (before.coordinator.getLatestStatus (Key.from status)) status := by
    obtain ⟨_, settled⟩ := after.run rest
    rw [settled.settled quiet, after.latest_kept (step.ledger ledger) rest unfailed, latest, verdict]
    exact Reference.after_automated _ status
  simp only [AlarmStateCoordinator.shown, confirmed]
  refine ⟨fun alarmed apart => ?_, fun well apart => ?_, fun well held same latched unknown => ?_⟩
  · obtain ⟨shown, result, state, severity⟩ := afterUpdate_alarmed free alarmed apart
    refine ⟨shown, ?_, state, severity⟩
    rcases state with state | state <;> simp [result, state]
  · rcases afterUpdate_ok free redis well with
      ⟨hidden, result, state⟩ | ⟨kept, same, latched, unknown⟩
    · rcases state with state | state <;> simp [result, state]
    · exact absurd unknown (apart kept same latched)
  · rw [same, afterUpdate_latched redis well latched unknown]
    simp [latched]

end

section

attribute [local instance] asciiPlatform

/-- The turns in which the status of the pump under way is published and reconciled. -/
def settlePump : List Action := Pipeline.carry ⟨0, 0⟩ ++ Pipeline.commit

/-- The pump has no job outstanding and none failed. -/
def pumpSettled (pipeline : Pipeline) (events : List Event) : Bool :=
  pipeline.outstanding pump = [] ∧ events.all fun event => match event with
    | .failed _ => false
    | _ => true

/-- An alarm of the pump is shown once it is published. -/
theorem redis_update_shown_alarm :
    ∃ middle out final later shown,
      (Pipeline.start .empty).step (.input (.automatedUpdate (pumpReading "major")) 0) =
        some (middle, out) ∧
      Pipeline.machine.Run (Pipeline.Untaken pump) middle settlePump later final ∧
      final.coordinator.shown pump = some shown ∧ shown.severity.value = .high := by
  obtain ⟨middle, out, fires, check⟩ := Pipeline.machine.step_of_check (.start .empty)
    (.input (.automatedUpdate (pumpReading "major")) 0)
    (fun middle _ => ((Pipeline.machine.exec
      (fun state action => decide ((state.intake action).map Intake.key ≠ some pump)) middle
      settlePump).any fun (final, later) => pumpSettled final later))
    (by decide)
  obtain ⟨final, later, rest, check⟩ :=
    Pipeline.untaken_of_check pump middle settlePump pumpSettled check
  obtain ⟨quiet, clean⟩ := of_decide_eq_true check
  have redis : FromRedis (pumpReading "major") := ⟨pumpEntry "major", 0, rfl⟩
  have same : Key.from (pumpReading "major") = pump := by decide
  have unfailed : Unfailed later := by
    intro job member
    simpa using List.all_eq_true.mp clean _ member
  have empty : (Pipeline.start .empty).coordinator.getLatestStatus pump = none := by decide
  have started : Pipeline.machine.Run Machine.Every (.start .empty) [] [] (.start .empty) := .refl
  obtain ⟨alarm, _, _⟩ := redis_update_shown redis started (by rw [same, empty]; decide) fires
    (by rw [same]; exact rest) unfailed (by rw [same]; exact quiet)
  rw [same] at alarm
  obtain ⟨shown, found, _, severity⟩ := alarm (by decide) (by simp [empty])
  exact ⟨middle, out, final, later, shown, fires, rest, found, severity.trans (by decide)⟩

/-- The pump hydrated as a latched alarm without a severity. -/
def latchedPump : FiniteMap Key Status := FiniteMap.empty.insert pump (pump.report .latched .unknown)

/-- The report that all is well does not end a latched alarm. -/
theorem latched_stays_shown :
    ∃ pipeline events status,
      FromRedis status ∧ Key.from status = pump ∧ status.state.value = .ok ∧
      pump.source ≠ .epics ∧
      Pipeline.machine.Run Pipeline.Prioritized (.start latchedPump)
        [.input (.automatedUpdate status) 0] events pipeline ∧
      Unfailed events ∧ pipeline.outstanding pump = [] ∧
      pipeline.coordinator.shown pump = some (pump.report .latched .unknown) ∧
      pump.report .latched .unknown ∈ pipeline.coordinator.snapshotOf := by
  obtain ⟨pipeline, events, run, check⟩ := Pipeline.run_of_check latchedPump
    [.input (.automatedUpdate (pumpReading "no_alarm")) 0]
    (fun pipeline events => events = [] ∧ pipeline.outstanding pump = [] ∧
      pipeline.coordinator.shown pump = some (pump.report .latched .unknown))
    (by decide)
  obtain ⟨rfl, quiet, shown⟩ := of_decide_eq_true check
  refine ⟨pipeline, [], pumpReading "no_alarm", ⟨pumpEntry "no_alarm", 0, rfl⟩, by decide,
    by decide, by decide, run, fun job member => absurd member List.not_mem_nil, quiet, shown, ?_⟩
  exact (pipeline.coordinator.mem_snapshotOf_iff _).mpr ⟨pump, shown⟩

end

end AcornAlarms
