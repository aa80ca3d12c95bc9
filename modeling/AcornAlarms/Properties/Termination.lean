import AcornAlarms.Lanes.Progress

/-!
# How the pipeline comes to rest

Once publishes succeed and no input arrives, the jobs under way and the timers set run
out, unless the scheduler rejects the command of an automated job that is the latest
intent of its key. Such a job is sent again as it was, and its wake time stays past.
-/

namespace AcornAlarms

open Library

section

variable [Platform]

/-- No input arrives and every publish attempt succeeds. -/
def Pipeline.Healthy : List Event → Pipeline → Action → Prop :=
  fun _ _ action => action.healthy = true

/-- No input arrives, every publish attempt succeeds and the scheduler strands no job. -/
def Pipeline.Recovers : List Event → Pipeline → Action → Prop :=
  fun _ self action => action.healthy = true ∧ self.strands action = false

/-- No task has a message or a returning attempt to take. Timers may be pending. -/
def Pipeline.Drained (self : Pipeline) : Prop :=
  ∀ action, action.healthy = true → (∀ clock slot, action ≠ .expiry clock slot) →
    self.step action = none

/-- From every state a run reaches, the healthy runs that strand no job are bounded, and one
that has nothing left to do leaves no speculative state. -/
theorem healthy_runs_end {hydratedStatuses : FiniteMap Key Status}
    {admits : List Event → Pipeline → Action → Prop} {actions : List Action}
    {events : List Event} {pipeline : Pipeline}
    (reached : Pipeline.machine.Run admits (.start hydratedStatuses) actions events pipeline) :
    ∃ bound, ∀ later more final,
      Pipeline.machine.Run Pipeline.Recovers pipeline later more final →
      later.length ≤ bound ∧
        (final.Drained → ∀ key, final.coordinator.speculativeState.get? key = none) := by
  obtain ⟨lanes, refines, ledger⟩ := Pipeline.ledger reached
  refine ⟨pipeline.backlog + lanes.work, fun later more final run => ?_⟩
  -- The rank of a state is read off the lanes that describe it.
  let rank : Pipeline → Nat → Prop := fun state weight => ∃ lanes past, Refines state lanes ∧
    Ledger hydratedStatuses past lanes.desk lanes.underway ∧ state.backlog + lanes.work = weight
  obtain ⟨left, ⟨finalLanes, _, finalRefines, _, _⟩, bound⟩ :=
    run.length_le rank ⟨lanes, events, refines, ledger, rfl⟩ (by
      rintro past state action next out higher ⟨lanes, earlier, refines, ledger, rfl⟩
        ⟨healthy, unstranded⟩ fires
      obtain ⟨nextLanes, step, after⟩ := refines.step fires
      exact ⟨_, refines.lowers after ledger step healthy unstranded fires, nextLanes,
        earlier ++ out, after, step.ledger ledger, rfl⟩)
  exact ⟨by omega, fun drained => finalRefines.drained drained⟩

end

section

attribute [local instance] asciiPlatform

/-- The clock reads second 200. -/
def late : Clock := ⟨200000000000, 0⟩

/-- The clock reads second 0. -/
def early : Clock := ⟨0, 0⟩

/-- A bypass until second 100 found at startup. -/
def elapsedSnooze : FiniteMap Key Status :=
  FiniteMap.empty.insert beam (buildUserStatus beam (.bypass (some ⟨100, 0⟩)) "operator" 0)

/-- The operator activates the key, the publish fails, and the bypass is dispatched again. -/
def restored : List Action :=
  [.input (.userUpdate beam .activate "operator" 10) 0] ++ Pipeline.carry late ++ Pipeline.giveUp

/-- Restored before its wake time, the bypass is published again. -/
theorem healthy_runs_end_restored :
    ∃ pipeline events bound more final,
      Pipeline.machine.Run Pipeline.Prioritized (.start elapsedSnooze) restored events pipeline ∧
      Pipeline.machine.Run Pipeline.Recovers pipeline (Pipeline.carry early ++ Pipeline.commit)
        more final ∧
      (Pipeline.carry early ++ Pipeline.commit).length ≤ bound ∧
      final.coordinator.speculativeState.get? beam = none := by
  let allowed : Pipeline → Action → Bool :=
    fun state action => action.healthy && !state.strands action
  obtain ⟨pipeline, events, run, check⟩ := Pipeline.run_of_check elapsedSnooze restored
    (fun pipeline _ => (Pipeline.machine.exec allowed pipeline
      (Pipeline.carry early ++ Pipeline.commit)).any fun reached =>
        reached.1.coordinator.speculativeState.get? beam = none) (by decide)
  have sound : ∀ past state action, allowed state action = true →
      Pipeline.Recovers past state action := by
    intro past state action both
    simpa [allowed, Pipeline.Recovers] using both
  obtain ⟨final, more, later, settled⟩ := Machine.run_of_check sound pipeline _
    (fun final _ => final.coordinator.speculativeState.get? beam = none) check
  obtain ⟨bound, ends⟩ := healthy_runs_end run
  exact ⟨pipeline, events, bound, more, final, run, later, (ends _ _ _ later).1,
    of_decide_eq_true settled⟩

/-- The scheduler rejects the wake time, and the failure is reconciled. -/
def rejection : List Action := [.job, .snoozeInput late, .snoozeOutcome, .jobOutcome 0]

/-- The restored bypass is rejected and dispatched again for ever. -/
theorem rejected_wake_redispatches :
    ∃ pipeline events job,
      Pipeline.machine.Run Pipeline.Prioritized (.start elapsedSnooze) restored events pipeline ∧
      pipeline.coordinator.speculativeState.get? beam ≠ none ∧
      ∀ count, ∃ more,
        Pipeline.machine.Run (fun past state action => Pipeline.Healthy past state action ∧
            Pipeline.Prioritized past state action)
          pipeline (List.replicate count rejection).flatten more pipeline ∧
        more.count (.dispatched job) = count := by
  let job : Job := ⟨0, beam, buildUserStatus beam (.bypass (some ⟨100, 0⟩)) "operator" 0, false⟩
  let allowed : Pipeline → Action → Bool :=
    fun state action => action.healthy && state.prioritized action
  obtain ⟨pipeline, events, run, check⟩ := Pipeline.run_of_check elapsedSnooze restored
    (fun pipeline _ => pipeline.coordinator.speculativeState.get? beam ≠ none ∧
      (Pipeline.machine.exec allowed pipeline rejection).any (fun reached =>
        reached.1 = pipeline ∧ reached.2.count (.dispatched job) = 1) = true) (by decide)
  obtain ⟨pending, loops⟩ := of_decide_eq_true check
  have sound : ∀ past state action, allowed state action = true →
      Pipeline.Healthy past state action ∧ Pipeline.Prioritized past state action := by
    intro past state action both
    exact Bool.and_eq_true_iff.mp both
  obtain ⟨final, more, round, closes⟩ := Machine.run_of_check sound pipeline rejection
    (fun final more => final = pipeline ∧ more.count (.dispatched job) = 1) loops
  obtain ⟨rfl, once⟩ := of_decide_eq_true closes
  refine ⟨final, events, job, run, pending, fun count => ⟨_, round.rounds ?_ count, ?_⟩⟩
  · exact fun _ _ _ _ admitted => admitted
  · rw [List.count_flatten, List.map_replicate, once]
    simp

end

end AcornAlarms
