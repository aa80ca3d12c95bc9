import AcornAlarms.Lanes.Load
import AcornAlarms.Runtime.Channels

/-!
# Circular waits

Each pair of tasks sends to one another on bounded channels from inside its handlers. Two
tasks wait for each other only when both channels between them are full and each task has
one message more, so a load of at most one less than that keeps every pair apart.
-/

namespace AcornAlarms

open Library

/-- The least capacity of the channels between the tasks. -/
def QueueCapacityConfig.narrowest (config : QueueCapacityConfig) : Nat :=
  min config.job (min config.publish config.snooze)

theorem QueueCapacityConfig.narrowest_le (config : QueueCapacityConfig) (channel : Channel) :
    config.narrowest ≤ config.capacity channel := by
  cases channel <;> simp only [narrowest, capacity] <;> omega

section

variable [Platform]

namespace Runtime

variable {config : QueueCapacityConfig} {self : Runtime}

/-- Two tasks wait for each other inside sends on full channels. -/
inductive CircularWait (config : QueueCapacityConfig) (self : Runtime) : Prop where
  | jobs (dispatch : self.Blocked config .coordinator .job)
      (report : self.Blocked config .handler .jobOutcome)
  | publishes (request : self.Blocked config .handler .publish)
      (report : self.Blocked config .engine .publishOutcome)
  | snoozes (command : self.Blocked config .handler .snooze)
      (report : self.Blocked config .scheduler .snoozeOutcome)

/-- Whether a turn raises the load only while both narrowest channels of a pair could still hold
it. -/
def light (config : QueueCapacityConfig) (self : Runtime) : RuntimeAction → Bool
  | .turn action =>
      !self.flatten.raises action || decide (self.flatten.load ≤ 2 * config.narrowest)
  | .accept _ => true

/-- An update opens a lane, or a timer elapses, only while the keys with speculative state and
the notices of elapsed timers are at most twice the narrowest capacity. -/
def Light (config : QueueCapacityConfig) : List Event → Runtime → RuntimeAction → Prop :=
  fun _ self action => self.light config action = true

/-- A full channel and the message a task waits to send on it. -/
theorem Blocked.queued {task : Task} {channel : Channel}
    (blocked : self.Blocked config task channel) :
    config.capacity channel + 1 ≤ self.flatten.queued channel := by
  obtain ⟨sending, full⟩ := blocked
  obtain ⟨tasks, jobs, work, snoozes, publishes⟩ := self
  have sent : tasks.queued channel + 1 ≤
      (tasks.deliver ⟨jobs, work, snoozes, publishes⟩).queued channel := by
    cases task with
    | coordinator =>
        cases jobs with
        | nil => cases sending
        | cons job rest =>
            cases sending
            simp [Pipeline.queued, Pipeline.deliver]
    | handler =>
        cases work with
        | nil => cases sending
        | cons message rest =>
            cases message <;> cases sending <;>
              simp [Pipeline.queued, Pipeline.deliver, List.filterMap_cons, WorkflowSend.outcome?,
                WorkflowSend.publish?, WorkflowSend.snooze?, WorkflowSend.channel]
    | scheduler =>
        cases snoozes with
        | nil => cases sending
        | cons outcome rest =>
            cases sending
            simp [Pipeline.queued, Pipeline.deliver]
    | engine =>
        cases publishes with
        | nil => cases sending
        | cons outcome rest =>
            cases sending
            simp [Pipeline.queued, Pipeline.deliver]
  exact Nat.le_trans (Nat.add_le_add_right full 1) sent

/-- A circular wait takes more than both narrowest channels of a pair hold. -/
theorem CircularWait.load {lanes : Lanes} (wait : self.CircularWait config)
    (refines : Refines self.flatten lanes) (reported : self.flatten.Reported) :
    2 * config.narrowest + 2 ≤ self.flatten.load := by
  cases wait with
  | jobs dispatch report =>
      have held := refines.jobs_le
      have first := dispatch.queued
      have second := report.queued
      have least := config.narrowest_le .job
      simp only [Pipeline.queued, QueueCapacityConfig.capacity] at first second least
      omega
  | publishes request report =>
      have held := refines.publishes_le reported
      have first := request.queued
      have second := report.queued
      have least := config.narrowest_le .publish
      simp only [Pipeline.queued, QueueCapacityConfig.capacity] at first second least
      omega
  | snoozes command report =>
      have held := refines.snoozes_le
      have first := command.queued
      have second := report.queued
      have least := config.narrowest_le .snooze
      simp only [Pipeline.queued, QueueCapacityConfig.capacity] at first second least
      omega

/-- What holds between the steps of a light run. -/
structure Sound (config : QueueCapacityConfig) (past : List Event) (runtime : Runtime) :
    Prop where
  refines : ∃ lanes, Refines runtime.flatten lanes
  timed : Timed past runtime.flatten
  reported : runtime.flatten.Reported
  bounded : runtime.flatten.load ≤ 2 * config.narrowest + 1

theorem Sound.start (config : QueueCapacityConfig) (hydratedStatuses : FiniteMap Key Status) :
    Sound config [] (.start hydratedStatuses) where
  refines := ⟨_, Refines.initial hydratedStatuses⟩
  timed := Timed.start hydratedStatuses
  reported := Pipeline.Reported.start hydratedStatuses
  bounded := Nat.zero_le _

/-- A light step keeps the load below that of a circular wait. -/
theorem Sound.step {past out : List Event} {next : Runtime} {action : RuntimeAction}
    (sound : Sound config past self) (light : Light config past self action)
    (fires : self.step config action = some (next, out)) : Sound config (past ++ out) next := by
  rcases flatten_step fires with ⟨turn, rfl, turns⟩ | ⟨_, same, rfl⟩
  · obtain ⟨lanes, refines⟩ := sound.refines
    obtain ⟨nextLanes, _, after⟩ := refines.step turns
    refine ⟨⟨nextLanes, after⟩, sound.timed.step refines turns, sound.reported.step turns, ?_⟩
    have grows := refines.load_step sound.timed turns
    have bounded := sound.bounded
    have room : self.flatten.raises turn = true → self.flatten.load ≤ 2 * config.narrowest := by
      intro raises
      simpa [Light, Runtime.light, raises] using light
    split at grows
    · next raises =>
        have least := room raises
        omega
    · omega
  · rw [List.append_nil]
    exact ⟨same ▸ sound.refines, same ▸ sound.timed, same ▸ sound.reported, same ▸ sound.bounded⟩

end Runtime

/-- In a run that opens lanes and lets timers elapse only while the load is at most twice the
narrowest capacity, no two tasks ever wait for each other. -/
theorem no_circular_wait {config : QueueCapacityConfig} {hydratedStatuses : FiniteMap Key Status}
    {actions : List RuntimeAction} {events : List Event} {final : Runtime}
    (run : (Runtime.machine config).Run (Runtime.Light config) (.start hydratedStatuses) actions
      events final) :
    ¬ final.CircularWait config := by
  have sound := run.history (Runtime.Sound config) (Runtime.Sound.start config hydratedStatuses)
    fun before light fires => before.step light fires
  obtain ⟨lanes, refines⟩ := sound.refines
  intro wait
  have load := wait.load refines sound.reported
  have bounded := sound.bounded
  omega

end

section

attribute [local instance] asciiPlatform

/-- Every queue holds one message. -/
def singleSlots : QueueCapacityConfig := ⟨1, 1, 1, 1, 1⟩

/-- A digital device. -/
def valve : Key := ⟨"VALVE", .digital, by decide⟩

/-- Another analog device. -/
def magnet : Key := ⟨"MAGNET", .analog, by decide⟩

/-- An alarm of a key is taken and its job put on the job queue. -/
def raiseAlarm (key : Key) : List RuntimeAction :=
  [.turn (.input (.automatedUpdate (key.report .alarmed .high)) 0), .accept .coordinator]

/-- The only job in a queue is brought to the engine. -/
def carryJob : List RuntimeAction :=
  [.turn .job, .accept .handler, .turn (.snoozeInput ⟨0, 0⟩), .accept .scheduler,
    .turn .snoozeOutcome, .accept .handler, .turn .publish]

/-- Two alarms are published and flushed in one batch. Before the handler takes it, a third
alarm fills the job queue and the coordinator takes a fourth. -/
def alarmStorm : List RuntimeAction :=
  raiseAlarm pump ++ carryJob ++ raiseAlarm beam ++ carryJob ++
    [.turn (.completion 0 true), .turn (.completion 0 true), .turn .flush, .accept .engine] ++
    raiseAlarm valve ++
    [.turn (.input (.automatedUpdate (magnet.report .alarmed .high)) 0), .turn .publishOutcome,
      .accept .handler]

/-- The coordinator waits for room on the job queue and the handler for room on the job-outcome
queue, each the only one that could make it. -/
theorem circular_wait_reached :
    ∃ (config : QueueCapacityConfig) (final : Runtime) (events : List Event),
      config.Positive ∧
      (Runtime.machine config).Run Runtime.Prioritized (.start .empty) alarmStorm events final ∧
      final.Blocked config .coordinator .job ∧ final.Blocked config .handler .jobOutcome := by
  obtain ⟨final, events, run, check⟩ := Runtime.run_of_check singleSlots Runtime.prioritized
    alarmStorm
    (fun final _ => final.Blocked singleSlots .coordinator .job ∧
      final.Blocked singleSlots .handler .jobOutcome) (by decide)
  obtain ⟨dispatch, report⟩ := of_decide_eq_true check
  exact ⟨singleSlots, final, events, by decide, run, dispatch, report⟩

/-- With two alarms under way the coordinator may wait for the handler, but not the other way
round. -/
theorem no_circular_wait_pump :
    ∃ (final : Runtime) (events : List Event),
      (Runtime.machine singleSlots).Run (Runtime.Light singleSlots) (.start .empty)
        (raiseAlarm pump ++ [.turn (.input (.automatedUpdate (beam.report .alarmed .high)) 0)])
        events final ∧
      final.Blocked singleSlots .coordinator .job ∧ ¬ final.CircularWait singleSlots := by
  obtain ⟨final, events, run, check⟩ := Runtime.run_of_check singleSlots
    (Runtime.light singleSlots)
    (raiseAlarm pump ++ [.turn (.input (.automatedUpdate (beam.report .alarmed .high)) 0)])
    (fun final _ => final.Blocked singleSlots .coordinator .job) (by decide)
  have light : (Runtime.machine singleSlots).Run (Runtime.Light singleSlots) (.start .empty) _
      events final := run
  exact ⟨final, events, light, of_decide_eq_true check, no_circular_wait light⟩

end

end AcornAlarms
