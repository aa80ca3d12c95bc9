import AcornAlarms.Lanes.Reference

/-!
# The pipeline refines the immediate sequential machine

While no user job fails, commits, retries and superseded intents do not show in what is
decided: the decisions of a run are those of the sequential machine on the inputs of the run.
-/

namespace AcornAlarms

open Library

section

variable [Platform]

/-- The pipeline and the sequential machine agree on the status of every key, and what is
confirmed is that status once nothing newer is pending. -/
structure Pipeline.Agrees (pipeline : Pipeline) (reference : Reference) : Prop where
  latest : ∀ key, pipeline.coordinator.getLatestStatus key = reference key
  confirmed : ∀ key, pipeline.coordinator.speculativeState.get? key = none →
    (pipeline.coordinator.confirmedState.get? key).map Prod.fst = reference key

variable {hydratedStatuses : FiniteMap Key Status} {pipeline next : Pipeline}
  {reference : Reference} {lanes : Lanes} {past out : List Event}

theorem Pipeline.Agrees.of_latest
    (latest : pipeline.coordinator.getLatestStatus = reference) : pipeline.Agrees reference where
  latest := fun key => congrFun latest key
  confirmed := by
    intro key absent
    rw [← latest, AlarmStateCoordinator.getLatestStatus, absent]
    rfl

/-- A turn and the sequential machine on the input of the turn. -/
theorem Refines.agrees (refines : Refines pipeline lanes)
    (ledger : Ledger hydratedStatuses past lanes.desk lanes.underway) (unfailed : Unfailed out)
    {action : Action} (fires : pipeline.step action = some (next, out)) :
    next.coordinator.getLatestStatus = ((pipeline.decides action out).map Prod.snd).foldl
        Reference.after pipeline.coordinator.getLatestStatus ∧
      ∀ taken ∈ pipeline.decides action out,
        taken.2 = taken.1.verdict (pipeline.coordinator.getLatestStatus taken.1.key) := by
  rw [Pipeline.decides]
  cases taken : pipeline.intake action with
  | some intake =>
      obtain ⟨verdict, latest, _⟩ := refines.takes fires taken
      exact ⟨latest, by simpa using verdict⟩
  | none =>
      obtain ⟨nextLanes, step, after⟩ := refines.step fires
      refine ⟨?_, by simp⟩
      rw [after.desk, refines.desk]
      refine step.latest_kept ledger unfailed fun event member => ?_
      by_contra records
      obtain ⟨key, recorded⟩ := Option.ne_none_iff_exists'.mp records
      have bound := Pipeline.records_intake (refines.records fires member recorded)
      rw [taken] at bound
      cases bound

/-- In every run in which no user job fails, the inputs and what was decided about them are a
run of the sequential machine, and the pipeline agrees with where that run ends. -/
theorem refines_sequential {actions : List Action} {events : List Event}
    {admits : List Event → Pipeline → Action → Prop}
    (run : Pipeline.machine.Run admits (.start hydratedStatuses) actions events pipeline)
    (unfailed : Unfailed events) :
    ∃ reference, Reference.machine.Run Machine.Every (.start hydratedStatuses)
        (((Pipeline.start hydratedStatuses).decisions actions).map Prod.fst)
        (((Pipeline.start hydratedStatuses).decisions actions).map Prod.snd) reference ∧
      pipeline.Agrees reference := by
  suffices same : Reference.machine.Run Machine.Every (.start hydratedStatuses)
      (((Pipeline.start hydratedStatuses).decisions actions).map Prod.fst)
      (((Pipeline.start hydratedStatuses).decisions actions).map Prod.snd)
      pipeline.coordinator.getLatestStatus from ⟨_, same, .of_latest rfl⟩
  induction run with
  | refl =>
      have initial : (Pipeline.start hydratedStatuses).coordinator.getLatestStatus =
          Reference.start hydratedStatuses := by
        ext1 key
        simp [Pipeline.start, AlarmStateCoordinator.new, AlarmStateCoordinator.getLatestStatus,
          Reference.start, Function.comp_def]
      rw [initial]
      exact .refl
  | @snoc actions events pipeline action next out prior admitted fires ih =>
      obtain ⟨lanes, refines, ledger⟩ := Pipeline.ledger prior
      have before := ih fun job member => unfailed job (List.mem_append_left out member)
      obtain ⟨latest, verdicts⟩ := refines.agrees ledger
        (fun job member => unfailed job (List.mem_append_right events member)) fires
      have seen := prior.observe_snoc Pipeline.decides fires
      rw [Pipeline.decisions] at before ⊢
      rw [seen, List.map_append, List.map_append, latest]
      -- A turn takes one input at most.
      cases taken : pipeline.intake action with
      | none =>
          rw [Pipeline.decides, taken]
          simpa using before
      | some intake =>
          have verdict : verdictOf out = intake.verdict _ :=
            verdicts (intake, verdictOf out) (by simp [Pipeline.decides, taken])
          rw [Pipeline.decides, taken]
          refine .snoc before trivial ?_
          simp only [Reference.machine, Option.toList_some, List.map_cons, List.map_nil,
            List.foldl_cons, List.foldl_nil, verdict]

end

section

attribute [local instance] asciiPlatform

/-- An alarm is published while its end is recorded, its first job fails, and the retry
publishes the end. -/
def superseded : List Action :=
  [.input (.automatedUpdate (pump.report .alarmed .high)) 0] ++ Pipeline.carry ⟨0, 0⟩ ++
  [.input (.automatedUpdate (pump.report .ok .unknown)) 0, .completion 0 false,
    .completion 0 false, .flush, .publishOutcome, .jobOutcome 0]

/-- No failed job of a run is a user's. -/
def automatedFailures (events : List Event) : Bool :=
  events.all fun event => match event with
    | .failed job => !job.userInitiated
    | _ => true

/-- After a failed job that was superseded both machines hold the newer status. -/
theorem refines_sequential_superseded :
    ∃ pipeline events reference,
      Pipeline.machine.Run Pipeline.Prioritized (.start .empty) superseded events pipeline ∧
      Reference.machine.Run Machine.Every (.start .empty)
        [.automated (pump.report .alarmed .high), .automated (pump.report .ok .unknown)]
        [.accepted pump (pump.report .alarmed .high), .accepted pump (pump.report .ok .unknown)]
        reference ∧
      pipeline.Agrees reference ∧ reference pump = some (pump.report .ok .unknown) := by
  obtain ⟨pipeline, events, run, check⟩ := Pipeline.run_of_check .empty superseded
    (fun pipeline events => automatedFailures events ∧
      pipeline.coordinator.getLatestStatus pump = some (pump.report .ok .unknown))
    (by decide)
  obtain ⟨automated, latest⟩ := of_decide_eq_true check
  have unfailed : Unfailed events := by
    intro job member
    simpa using List.all_eq_true.mp automated _ member
  obtain ⟨reference, sequential, agrees⟩ := refines_sequential run unfailed
  refine ⟨pipeline, events, reference, run, ?_, agrees, (agrees.latest pump).symm.trans latest⟩
  exact sequential

end

end AcornAlarms
