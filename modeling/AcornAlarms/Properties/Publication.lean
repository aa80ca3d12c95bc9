import AcornAlarms.Lanes.Journal
import AcornAlarms.Library.History

/-!
# The confirmed state is the published log

The coordinator writes to the confirmed state of a key what the engine published for
it, in the same order and at most one status behind, and snapshots show nothing else.
-/

namespace AcornAlarms

open Library

section

variable [Platform]

/-- What a snapshot shows is confirmed. -/
theorem AlarmStateCoordinator.mem_snapshotOf {self : AlarmStateCoordinator} {status : Status}
    (member : status ∈ self.snapshotOf) :
    ∃ key, (self.confirmedState.get? key).map Prod.fst = some status := by
  obtain ⟨⟨key, confirmed, id⟩, entry, shown⟩ := List.mem_filterMap.mp member
  simp only [Option.ite_none_left_eq_some, Option.some.injEq] at shown
  rw [← shown.2]
  exact ⟨key, by rw [(FiniteMap.mem_entries_iff _ _ _).mp entry]; rfl⟩

/-- A snapshot is taken of the desk before the step. -/
theorem Lanes.Step.snapshots {lanes next : Lanes} {out : List Event} {sender : Nat}
    {statuses : List Status} (step : lanes.Step out next)
    (member : .snapshot sender statuses ∈ out) : statuses = lanes.desk.snapshotOf := by
  have resolved : ∀ job answer,
      .snapshot sender statuses ∉ lanes.desk.settleEvents job answer := by
    intro job answer inside
    unfold AlarmStateCoordinator.settleEvents AlarmStateCoordinator.resolve at inside
    split at inside <;> simp at inside
  cases step with
  | still quiet => exact quiet _ member
  | @start _ _ confirmation before _ _ _ quiet _ _ _ _
  | @displace _ _ confirmation before _ _ _ quiet _ _ _ =>
      by_cases early : .snapshot sender statuses ∈ before
      · exact quiet _ early
      · cases confirmation <;> simp [early, AlarmStateCoordinator.recordEvent] at member
  | travel move _ _ =>
      have silent : ∀ {key stage reached}, Stage.Move key stage out reached →
          .snapshot sender statuses ∉ out := by
        intro key stage reached move
        cases move <;> simp
      exact absurd member (silent move)
  | report _ _ => exact absurd member List.not_mem_nil
  | commitLast _ _ _ _ | commitNext _ _ _ _ _ _ | rollBack _ _ _ _ _ _
  | redispatch _ _ _ _ _ _ => simp [resolved] at member

/-- Every snapshot shows what was hydrated or published before it. -/
def Shown (hydratedStatuses : FiniteMap Key Status) (past : List Event) : Prop :=
  ∀ before after sender statuses, past = before ++ .snapshot sender statuses :: after →
    ∀ status ∈ statuses, ∃ key,
      hydratedStatuses.get? key = some status ∨ status ∈ deliveredOf key before

theorem Lanes.Step.shown {hydratedStatuses : FiniteMap Key Status} {past out : List Event}
    {lanes next : Lanes} (step : lanes.Step out next)
    (journal : Journal hydratedStatuses past lanes) (shown : Shown hydratedStatuses past) :
    Shown hydratedStatuses (past ++ out) := by
  intro before after sender statuses split status member
  rcases split_append split with ⟨rest, same, _⟩ | ⟨early, rfl, same⟩
  · exact shown before rest sender statuses same status member
  · have taken : .snapshot sender statuses ∈ out := by
      rw [same]
      simp
    rw [step.snapshots taken] at member
    obtain ⟨key, found⟩ := AlarmStateCoordinator.mem_snapshotOf member
    refine ⟨key, (journal.confirmed found).imp_right fun published => ?_⟩
    rw [deliveredOf_append]
    exact List.mem_append_left _ published

/-- In every run the statuses written to the confirmed state of a key are those published
for it, all or all but the last, and at rest the confirmed status is the last one
published. Snapshots show only what was hydrated or published before. -/
theorem confirmed_is_published {hydratedStatuses : FiniteMap Key Status} {actions : List Action}
    {events : List Event} {final : Pipeline}
    (run : Pipeline.machine.Run Machine.Every (.start hydratedStatuses) actions events final) :
    (∀ key, (final.requestsOf key).length + (final.attemptsOf key).length ≤ 1) ∧
    (∀ key, writtenOf key events = deliveredOf key events ∨
      writtenOf key events = (deliveredOf key events).dropLast) ∧
    (∀ key, (final.coordinator.confirmedState.get? key).map Prod.fst =
      (writtenOf key events).getLast?.or (hydratedStatuses.get? key)) ∧
    (∀ key, final.outstanding key = [] →
      (final.coordinator.confirmedState.get? key).map Prod.fst =
        (deliveredOf key events).getLast?.or (hydratedStatuses.get? key)) ∧
    (∀ before after sender statuses, events = before ++ .snapshot sender statuses :: after →
      ∀ status ∈ statuses, ∃ key,
        hydratedStatuses.get? key = some status ∨ status ∈ deliveredOf key before) := by
  obtain ⟨lanes, refines, journal, shown⟩ := (Refines.initial hydratedStatuses).history run
    (fun past lanes => Journal hydratedStatuses past lanes ∧ Shown hydratedStatuses past)
    ⟨Journal.start hydratedStatuses, fun _ _ _ _ split => absurd split (by simp)⟩
    (fun both step => ⟨both.1.step step, step.shown both.1 both.2⟩)
  refine ⟨?_, ?_, ?_, ?_, shown⟩
  · intro key
    rw [(refines.occupies key).requests, (refines.occupies key).attempts]
    cases lanes.stage key <;> simp [Stage.requests, Stage.attempts]
  · intro key
    rw [journal.log key]
    unfold Stage.unwritten
    split <;> simp
  · intro key
    rw [refines.desk]
    exact journal.store key
  · intro key quiet
    rw [refines.desk]
    apply journal.last
    rw [refines.idle_of_outstanding quiet]
    rfl

end

section

attribute [local instance] asciiPlatform

/-- Two alarms of a key are published, with a snapshot in between. -/
def publishedTwice : List Action :=
  [.input (.automatedUpdate (pump.report .alarmed .high)) 0] ++ Pipeline.carry ⟨0, 0⟩ ++
    [.completion 0 true, .flush, .publishOutcome, .jobOutcome 0,
      .input (.snapshotRequest 7) 0, .input (.automatedUpdate (pump.report .ok .unknown)) 0] ++
    Pipeline.carry ⟨0, 0⟩ ++ [.completion 0 true, .flush, .publishOutcome, .jobOutcome 0]

/-- The second one is confirmed, and the snapshot shows nothing unpublished. -/
theorem confirmed_is_published_twice :
    ∃ (final : Pipeline) (events : List Event),
      Pipeline.machine.Run Machine.Every (.start .empty) publishedTwice events final ∧
      deliveredOf pump events = [pump.report .alarmed .high, pump.report .ok .unknown] ∧
      (final.coordinator.confirmedState.get? pump).map Prod.fst =
        (deliveredOf pump events).getLast?.or none ∧
      ∃ before after statuses, events = before ++ .snapshot 7 statuses :: after ∧
        ∀ status ∈ statuses, ∃ key, status ∈ deliveredOf key before := by
  obtain ⟨final, events, run, check⟩ := Pipeline.run_of_check .empty publishedTwice
    (fun final events => final.coordinator.speculativeState.keys = [] ∧
      deliveredOf pump events = [pump.report .alarmed .high, pump.report .ok .unknown] ∧
      .snapshot 7 [pump.report .alarmed .high] ∈ events) (by decide)
  simp only [decide_eq_true_eq] at check
  obtain ⟨keys, delivered, member⟩ := check
  obtain ⟨before, after, split⟩ := List.append_of_mem member
  obtain ⟨lanes, refines⟩ := (Refines.initial .empty).run run
  obtain ⟨_, _, _, rest, shown⟩ := confirmed_is_published run.forget
  refine ⟨final, events, run.forget, delivered, ?_, before, after, _, split, ?_⟩
  · exact rest pump (refines.outstanding_nil ((FiniteMap.keys_eq_nil_iff _).mp keys pump))
  · intro status inside
    obtain ⟨key, hydrated | published⟩ := shown before after 7 _ split status inside
    · cases hydrated
    · exact ⟨key, published⟩

end

end AcornAlarms
