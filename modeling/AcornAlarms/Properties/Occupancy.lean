import AcornAlarms.Lanes.Refinement

/-!
# One job per key

A key with speculative state has exactly one job on its way and a key without has
none; the messages outstanding for a tracked job are those of its step. What the
handlers treat as impossible therefore never happens.
-/

namespace AcornAlarms

open Library

section

variable [Platform]

namespace Pipeline

variable (self : Pipeline) (key : Key)

/-- The snooze commands of a key and the answers to them that are outstanding. -/
def snoozeCount : Nat := (self.commandsOf key).length + (self.repliesOf key).length

/-- The publish requests, attempts and results of a key that are outstanding. -/
def publishCount : Nat :=
  (self.requestsOf key).length + (self.attemptsOf key).length + (self.resultsOf key).length

end Pipeline

/-- An error or panic that ends a task, or an overrun workflow. -/
def Event.Fatal : Event → Prop
  | .overran _ | .unrecoverable _ | .panicked _ => True
  | _ => False

theorem Event.Quiet.not_fatal {desk : AlarmStateCoordinator} {event : Event}
    (quiet : event.Quiet desk) : ¬ event.Fatal := by
  cases event with
  | overran | unrecoverable | panicked => exact quiet.elim
  | _ => exact id

theorem AlarmStateCoordinator.settleEvents_not_fatal {desk : AlarmStateCoordinator} {job : Job}
    {answer : Except UpdateError Unit} {event : Event}
    (member : event ∈ desk.settleEvents job answer) : ¬ event.Fatal := by
  unfold settleEvents resolve at member
  split at member
  · obtain rfl := List.mem_singleton.mp member
    exact id
  · exact absurd member List.not_mem_nil

theorem AlarmStateCoordinator.recordEvent_not_fatal {desk : AlarmStateCoordinator} {key : Key}
    {status : Status} {confirmation : Option Confirmation} :
    ¬ (desk.recordEvent key status confirmation).Fatal := by
  cases confirmation <;> exact id

theorem Stage.Move.not_fatal {key : Key} {stage next : Stage} {events : List Event}
    (move : Stage.Move key stage events next) : ∀ event ∈ events, ¬ event.Fatal := by
  cases move <;> simp [Event.Fatal]

/-- No step of the lanes reports a fatal event. -/
theorem Lanes.Step.not_fatal {lanes next : Lanes} {out : List Event} (step : lanes.Step out next) :
    ∀ event ∈ out, ¬ event.Fatal := by
  intro event member
  cases step with
  | still quiet => exact (quiet event member).not_fatal
  | start _ quiet _ _ _ _ =>
      simp only [List.mem_append, List.mem_cons, List.not_mem_nil, or_false] at member
      rcases member with early | rfl | rfl
      · exact (quiet event early).not_fatal
      · exact AlarmStateCoordinator.recordEvent_not_fatal
      · exact id
  | displace _ quiet _ _ _ =>
      simp only [List.mem_append, List.mem_singleton] at member
      rcases member with early | rfl
      · exact (quiet event early).not_fatal
      · exact AlarmStateCoordinator.recordEvent_not_fatal
  | travel move _ _ => exact move.not_fatal event member
  | report _ _ => exact absurd member List.not_mem_nil
  | commitLast _ _ _ _ =>
      simp only [List.mem_append, List.mem_singleton] at member
      rcases member with resolved | rfl
      · exact AlarmStateCoordinator.settleEvents_not_fatal resolved
      · exact id
  | commitNext _ _ _ _ _ _ | rollBack _ _ _ _ _ _ | redispatch _ _ _ _ _ _ =>
      simp only [List.mem_append, List.mem_cons, List.not_mem_nil, or_false] at member
      rcases member with resolved | rfl | rfl
      · exact AlarmStateCoordinator.settleEvents_not_fatal resolved
      · exact id
      · exact id

/-- What the stage of a key fixes about the messages outstanding for it. -/
theorem Occupies.messages {pipeline : Pipeline} {key : Key} {stage : Stage}
    (occupies : Occupies pipeline key stage) {tracked : TrackedJob}
    (found : pipeline.handler.jobs.get? key = some tracked) :
    (tracked.step = 1 ∧ pipeline.snoozeCount key = 1 ∧ pipeline.publishCount key = 0) ∨
      (tracked.step = 2 ∧ pipeline.snoozeCount key = 0 ∧ pipeline.publishCount key = 1) := by
  rw [occupies.tracked] at found
  simp only [Pipeline.snoozeCount, Pipeline.publishCount, occupies.commands, occupies.replies,
    occupies.requests, occupies.attempts, occupies.results]
  cases stage <;>
    simp_all [Stage.tracked, Stage.commands, Stage.replies, Stage.requests, Stage.attempts,
      Stage.results] <;>
    simp [← found]

/-- Between the turns of every run each key has exactly one job on its way if it has
speculative state and none otherwise, with the messages of its step outstanding;
no task has stopped, failed or overrun, and the job the handler takes next finds its
key untracked. -/
theorem one_job_per_key {hydratedStatuses : FiniteMap Key Status} {actions : List Action}
    {events : List Event} {final : Pipeline}
    (run : Pipeline.machine.Run Machine.Every (.start hydratedStatuses) actions events final) :
    (∀ key, (final.outstanding key).length =
      if final.coordinator.speculativeState.contains key then 1 else 0) ∧
    (∀ key tracked, final.handler.jobs.get? key = some tracked →
      (tracked.step = 1 ∧ final.snoozeCount key = 1 ∧ final.publishCount key = 0) ∨
        (tracked.step = 2 ∧ final.snoozeCount key = 0 ∧ final.publishCount key = 1)) ∧
    (∀ event ∈ events, ¬ event.Fatal) ∧
    (final.coordinatorRunning = true ∧ final.handlerRunning = true ∧
      final.schedulerRunning = true) ∧
    (∀ job rest, final.jobs = job :: rest → final.handler.jobs.get? job.key = none) := by
  obtain ⟨lanes, refines, harmless⟩ := (Refines.initial hydratedStatuses).history run
    (fun past _ => ∀ event ∈ past, ¬ event.Fatal) (by simp)
    (by
      intro past lanes out next before step event member
      rcases List.mem_append.mp member with early | late
      · exact before event early
      · exact step.not_fatal event late)
  refine ⟨?_, ?_, harmless, ?_, ?_⟩
  · intro key
    have same := lanes.busy key
    rw [(refines.occupies key).outstanding_eq, refines.desk, FiniteMap.contains, same]
    cases (lanes.stage key).job? <;> rfl
  · intro key tracked found
    exact (refines.occupies key).messages found
  · exact ⟨refines.coordinatorRunning, refines.handlerRunning, refines.schedulerRunning⟩
  · intro job rest queue
    have occupies := refines.occupies job.key
    have content : job :: rest.filter (fun later => later.key = job.key) =
        (lanes.stage job.key).jobs := by
      rw [← occupies.jobs]
      simp [Pipeline.jobsOf, queue]
    rw [occupies.tracked, (Stage.jobs_cons content).1]
    rfl

end

section

attribute [local instance] asciiPlatform

/-- An alarm whose snooze command was accepted is on its way to the engine. -/
theorem one_job_per_key_publishing :
    ∃ (final : Pipeline) (events : List Event) (tracked : TrackedJob),
      Pipeline.machine.Run Machine.Every (.start .empty)
        [.input (.automatedUpdate (pump.report .alarmed .high)) 0, .job, .snoozeInput ⟨0, 0⟩,
          .snoozeOutcome] events final ∧
      final.handler.jobs.get? pump = some tracked ∧
      ((final.outstanding pump).length =
        if final.coordinator.speculativeState.contains pump then 1 else 0) ∧
      ((tracked.step = 1 ∧ final.snoozeCount pump = 1 ∧ final.publishCount pump = 0) ∨
        (tracked.step = 2 ∧ final.snoozeCount pump = 0 ∧ final.publishCount pump = 1)) ∧
      ∀ event ∈ events, ¬ event.Fatal := by
  obtain ⟨final, events, run, check⟩ := Pipeline.run_of_check .empty
    [.input (.automatedUpdate (pump.report .alarmed .high)) 0, .job, .snoozeInput ⟨0, 0⟩,
      .snoozeOutcome]
    (fun final _ => (final.handler.jobs.get? pump).isSome) (by decide)
  obtain ⟨tracked, found⟩ := Option.isSome_iff_exists.mp check
  obtain ⟨counts, outstanding, harmless, _⟩ := one_job_per_key run.forget
  exact ⟨final, events, tracked, run.forget, found, counts pump, outstanding pump tracked found,
    harmless⟩

end

end AcornAlarms
