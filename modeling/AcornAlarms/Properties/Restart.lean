import AcornAlarms.Lanes.Timers

/-!
# A snooze after a restart

Startup hands the hydrated statuses to the coordinator and nothing to the scheduler. Until a
job of a key runs, a hydrated bypass of it has no timer and no wake-up ends it, whatever its
wake time.
-/

namespace AcornAlarms

open Library

section

variable [Platform]

namespace Pipeline

/-- Every queue between the tasks is empty. -/
def QueuesEmpty (self : Pipeline) : Prop :=
  self.jobs = [] ∧ self.jobOutcomes = [] ∧ self.snoozeInputs = [] ∧ self.snoozeOutcomes = [] ∧
    self.publishes = [] ∧ self.publishOutcomes = []

/-- A timer will wake the key no later than a time, or the time is reached and a wake-up of the
key was handled. -/
def Wakes (self : Pipeline) (past : List Event) (clock : Clock) (key : Key) (wake : Timestamp) :
    Prop :=
  (∃ slot deadline, self.scheduler.registry.get? key = some slot ∧
    self.scheduler.delayQueue.entries.get? slot = some (key, deadline) ∧
    deadline ≤ clock.instant + (wake.seconds * nanosPerSecond - clock.utc).toNat) ∨
  (wake.seconds * nanosPerSecond ≤ clock.utc ∧ .woke key ∈ past)

end Pipeline

/-- No job of the key was committed. -/
def Uncommitted (key : Key) (past : List Event) : Prop :=
  ∀ job, .committed job ∈ past → job.key ≠ key

/-- A hydrated snooze survives the restart: at rest, until a job of its key commits, the key
will be woken at its wake time or was. -/
def SurvivesRestart (hydratedStatuses : FiniteMap Key Status) (key : Key) (wake : Timestamp) : Prop :=
  ∀ actions events pipeline clock,
    Pipeline.machine.Run Machine.Every (.start hydratedStatuses) actions events pipeline →
    pipeline.QueuesEmpty → Uncommitted key events → pipeline.Wakes events clock key wake

/-- Nothing happened to a key since the start. -/
structure Untouched (key : Key) (entry : Status × Nat) (past : List Event) (lanes : Lanes) :
    Prop where
  idle : lanes.stage key = .idle
  confirmed : lanes.desk.confirmedState.get? key = some entry
  held : Held key past none False
  unexpired : expiredTimers key past = []

variable {hydratedStatuses : FiniteMap Key Status} {key : Key} {entry : Status × Nat}
  {past out : List Event} {lanes next : Lanes} {pipeline : Pipeline} {action : Action}

/-- A lane with a job opens only by a commit. -/
theorem Lanes.Step.busy_kept (step : lanes.Step out next)
    (ledger : Ledger hydratedStatuses past lanes.desk lanes.underway)
    (busy : lanes.stage key ≠ .idle) :
    next.stage key ≠ .idle ∨ ∃ job, .committed job ∈ out ∧ job.key = key := by
  rcases step.seen key with ⟨status, confirmation, records⟩ | ⟨_, view⟩
  · rcases records.lane with ⟨idle, _⟩ | ⟨_, stage⟩
    · exact absurd idle busy
    · exact .inl (by rw [stage]; exact busy)
  · cases view with
    | stays under _ _ _ _ =>
        refine .inl fun idle => busy (Stage.eq_idle_of_job? ?_)
        rw [Lanes.underway, Lanes.underway, idle] at under
        exact under.symm
    | @commitLast job _ arrived _ _ _ _ committed _ =>
        exact .inr ⟨job, committed, (ledger.job (Lanes.underway_arrived arrived)).1⟩
    | commitNext _ _ _ _ _ stage _ _ _ _ | fails _ _ _ _ _ stage _ _ _ =>
        exact .inl (by rw [stage]; simp)

theorem Untouched.timer (untouched : Untouched key entry past lanes) : timerOf key past = none := by
  rcases untouched.held.timer with timer | ⟨set, _⟩
  · exact timer
  · cases set

/-- Nothing happens to a key until a job of it starts. -/
theorem Untouched.step (untouched : Untouched key entry past lanes) (step : lanes.Step out next)
    (timing : Timing pipeline action out)
    (bound : wakesHandled key past ≤ (expiredTimers key past).length)
    (armed : .expired key ∈ out → (timerOf key past).isSome) :
    next.stage key ≠ .idle ∨ Untouched key entry (past ++ out) next := by
  have unset : timerOf key past = none := untouched.timer
  have unexpired : .expired key ∉ out := by
    intro expired
    have set := armed expired
    rw [unset] at set
    cases set
  rcases step.seen key with ⟨status, confirmation, records⟩ | ⟨_, view⟩
  · rcases records.lane with ⟨_, stage⟩ | ⟨⟨job, under⟩, _⟩
    · exact .inl (by rw [stage, Function.update_self]; simp)
    · rw [Lanes.underway, untouched.idle] at under
      cases under
  · cases view with
    | stays under _ confirmed _ _ =>
        refine .inr ⟨?_, confirmed.trans untouched.confirmed, ?_, ?_⟩
        · apply Stage.eq_idle_of_job?
          rw [Lanes.underway, Lanes.underway, untouched.idle] at under
          exact under
        · refine untouched.held.append timing ?_ bound (fun expired => absurd expired unexpired)
            fun _ some => absurd some (by simp)
          by_contra answered
          obtain ⟨job, _, busy, _, _⟩ := step.answered_of answered
          rw [Lanes.underway, untouched.idle] at busy
          cases busy
        · rw [expiredTimers_kept key past unexpired, untouched.unexpired]
    | commitLast arrived _ _ _ _ _ _ | commitNext arrived _ _ _ _ _ _ _ _ _
    | fails arrived _ _ _ _ _ _ _ _ =>
        rw [untouched.idle] at arrived
        cases arrived

/-- Until a job of a key commits, the key has a job under way or nothing happened to it. -/
theorem Pipeline.untouched {status : Status} {actions : List Action} {events : List Event}
    {admits : List Event → Pipeline → Action → Prop}
    (present : hydratedStatuses.get? key = some status)
    (run : Pipeline.machine.Run admits (.start hydratedStatuses) actions events pipeline) :
    ∃ lanes, Refines pipeline lanes ∧ Timed events pipeline ∧
      ((∃ job, .committed job ∈ events ∧ job.key = key) ∨ lanes.stage key ≠ .idle ∨
        Untouched key (status, defaultHydratedId) events lanes) := by
  suffices all : ∃ lanes, Refines pipeline lanes ∧
      Ledger hydratedStatuses events lanes.desk lanes.underway ∧ Timed events pipeline ∧
      ((∃ job, .committed job ∈ events ∧ job.key = key) ∨ lanes.stage key ≠ .idle ∨
        Untouched key (status, defaultHydratedId) events lanes) by
    obtain ⟨lanes, refines, _, timed, either⟩ := all
    exact ⟨lanes, refines, timed, either⟩
  refine run.history (fun past state => ∃ lanes, Refines state lanes ∧
    Ledger hydratedStatuses past lanes.desk lanes.underway ∧ Timed past state ∧
    ((∃ job, .committed job ∈ past ∧ job.key = key) ∨ lanes.stage key ≠ .idle ∨
      Untouched key (status, defaultHydratedId) past lanes)) ?_ ?_
  · refine ⟨.start hydratedStatuses, .initial hydratedStatuses, .start hydratedStatuses,
      .start hydratedStatuses, .inr (.inr ⟨rfl, ?_, ⟨.inr ⟨rfl, rfl⟩, .inl rfl⟩, rfl⟩)⟩
    simp [Lanes.start, AlarmStateCoordinator.new, present]
  · rintro past state action next out ⟨lanes, refines, ledger, timed, either⟩ _ fires
    obtain ⟨nextLanes, step, after⟩ := refines.step fires
    refine ⟨nextLanes, after, step.ledger ledger, timed.step refines fires, ?_⟩
    rcases either with ⟨job, committed, named⟩ | busy | untouched
    · exact .inl ⟨job, List.mem_append_left out committed, named⟩
    · rcases step.busy_kept ledger busy with busy | ⟨job, committed, named⟩
      · exact .inr (.inl busy)
      · exact .inl ⟨job, List.mem_append_right past committed, named⟩
    · have transit := timed.transit key
      refine .inr (untouched.step step (refines.timing fires) (by omega) fun expired => ?_)
      obtain ⟨slot, registered⟩ := (refines.timing fires).registered expired
      rw [← timed.registered key, registered]
      rfl

/-- No hydrated snooze survives the restart: whatever the run, as long as no job of the key is
committed and none is under way the scheduler has no timer for the key, no wake-up of it was
handled and the key is still bypassed until its wake time. -/
theorem hydrated_snooze_never_ends {status : Status} {wake : Timestamp}
    (present : hydratedStatuses.get? key = some status) (bypassed : status.state.value = .bypassed)
    (wakes : status.wake = some wake) :
    ¬ SurvivesRestart hydratedStatuses key wake ∧
    ∀ actions events pipeline,
      Pipeline.machine.Run Machine.Every (.start hydratedStatuses) actions events pipeline →
      Uncommitted key events → pipeline.outstanding key = [] →
      pipeline.scheduler.registry.get? key = none ∧ .woke key ∉ events ∧
        ∃ held, pipeline.coordinator.getLatestStatus key = some held ∧
          held.state.value = .bypassed ∧ held.wake = some wake := by
  have stands : ∀ actions events pipeline,
      Pipeline.machine.Run Machine.Every (.start hydratedStatuses) actions events pipeline →
      Uncommitted key events → pipeline.outstanding key = [] →
      pipeline.scheduler.registry.get? key = none ∧ .woke key ∉ events ∧
        ∃ held, pipeline.coordinator.getLatestStatus key = some held ∧
          held.state.value = .bypassed ∧ held.wake = some wake := by
    intro actions events pipeline run uncommitted quiet
    obtain ⟨lanes, refines, timed, either⟩ := Pipeline.untouched present run
    rcases either with ⟨job, committed, named⟩ | busy | untouched
    · exact absurd named (uncommitted job committed)
    · exact absurd (refines.idle_of_outstanding quiet) busy
    · have transit := timed.transit key
      rw [untouched.unexpired, List.length_nil] at transit
      refine ⟨?_, fun woke => ?_, ?_⟩
      · rw [← Option.not_isSome_iff_eq_none, timed.registered key, untouched.timer]
        simp
      · have handled := List.count_pos_iff.mpr woke
        rw [wakesHandled] at transit
        omega
      · refine ⟨status, ?_, bypassed, wakes⟩
        rw [refines.desk, Lanes.latest_of_idle untouched.idle, untouched.confirmed]
        rfl
  refine ⟨fun survives => ?_, stands⟩
  -- Nothing has happened yet at the start.
  have quiet : (Pipeline.start hydratedStatuses).outstanding key = [] := rfl
  obtain ⟨unset, unwoken, _⟩ := stands [] [] _ .refl (fun _ member => absurd member (by simp)) quiet
  rcases survives [] [] _ ⟨0, 0⟩ .refl ⟨rfl, rfl, rfl, rfl, rfl, rfl⟩
    (fun _ member => absurd member (by simp)) with ⟨slot, _, registered, _⟩ | ⟨_, woken⟩
  · rw [unset] at registered
    cases registered
  · exact unwoken woken

end

section

attribute [local instance] asciiPlatform

/-- The EPICS device hydrated as snoozed until second 100. -/
def snoozedBeam : FiniteMap Key Status :=
  FiniteMap.empty.insert beam (buildUserStatus beam (.bypass (some ⟨100, 0⟩)) "operator" 0)

/-- Long after its wake time a hydrated snooze still suppresses an alarm of its device, with
every queue empty. -/
theorem hydrated_snooze_suppresses :
    ∃ pipeline, Pipeline.machine.Run Pipeline.Prioritized (.start snoozedBeam)
        [.input (.automatedUpdate (beam.report .alarmed .high)) 200] [] pipeline ∧
      pipeline.QueuesEmpty ∧ pipeline.scheduler.registry.get? beam = none ∧
      ¬ SurvivesRestart snoozedBeam beam ⟨100, 0⟩ := by
  obtain ⟨pipeline, events, run, check⟩ := Pipeline.run_of_check snoozedBeam
    [.input (.automatedUpdate (beam.report .alarmed .high)) 200]
    (fun pipeline events => pipeline = .start snoozedBeam ∧ events = []) (by decide)
  obtain ⟨rfl, rfl⟩ := of_decide_eq_true check
  refine ⟨_, run, ⟨rfl, rfl, rfl, rfl, rfl, rfl⟩, rfl, fun survives => ?_⟩
  rcases survives _ _ _ ⟨200000000000, 0⟩ run.forget ⟨rfl, rfl, rfl, rfl, rfl, rfl⟩
    (fun _ member => absurd member (by simp)) with ⟨slot, _, registered, _⟩ | ⟨_, woken⟩
  · cases registered
  · cases woken

/-- The restarted service leaves the snoozed device without a timer. -/
theorem hydrated_snooze_never_ends_beam :
    ¬ SurvivesRestart snoozedBeam beam ⟨100, 0⟩ ∧
      (Pipeline.start snoozedBeam).scheduler.registry.get? beam = none := by
  have present : snoozedBeam.get? beam =
      some (buildUserStatus beam (.bypass (some ⟨100, 0⟩)) "operator" 0) := by decide
  obtain ⟨dies, stands⟩ := hydrated_snooze_never_ends present rfl rfl
  exact ⟨dies, (stands [] [] _ .refl (fun _ member => absurd member (by simp)) rfl).1⟩

end

end AcornAlarms
