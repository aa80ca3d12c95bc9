import AcornAlarms.Properties.Answers
import AcornAlarms.Properties.Overload
import AcornAlarms.Properties.Progress
import AcornAlarms.Runtime.Select

/-!
# Operators first

The coordinator polls the automated channel only after it found the user channel empty. So a user
message is taken after those ahead of it, after at most one automated message, and after a number
of polls and turns that no automated backlog adds to.
-/

namespace AcornAlarms

open Library

section

variable [Platform]

namespace Lanes

variable {lanes next : Lanes} {out past : List Event} {key : Key}
  {hydratedStatuses : FiniteMap Key Status}

/-- A lane that keeps its job and its latest intent, if that owes no more than before. -/
theorem potential_unmoved (stage : next.stage key = lanes.stage key)
    (latest : next.desk.speculativeState.get? key = lanes.desk.speculativeState.get? key)
    (fewer : ∀ status id, lanes.desk.speculativeState.get? key = some (status, id) →
      next.desk.pendingConfirmations.contains id = true →
        lanes.desk.pendingConfirmations.contains id = true) :
    next.potential key ≤ lanes.potential key := by
  rw [potential, potential, stage, latest]
  apply Nat.add_le_add_left
  cases under : (lanes.stage key).job? with
  | none => simp [Stage.followCost, under]
  | some job =>
      cases entry : lanes.desk.speculativeState.get? key with
      | none => simp [Stage.followCost]
      | some intent =>
          obtain ⟨status, id⟩ := intent
          rw [Stage.followCost_eq under, Stage.followCost_eq under]
          split
          · exact Nat.le_refl _
          · apply Nat.add_le_add_left
            cases owes : next.desk.pendingConfirmations.contains id with
            | false => exact Nat.zero_le _
            | true => rw [fewer status id entry owes]

/-- A recorded status costs at most a job with a timer and its rollback. -/
theorem Step.records_work (step : lanes.Step out next)
    (ledger : Ledger hydratedStatuses past lanes.desk lanes.underway) {event : Event}
    (member : event ∈ out) (records : event.recordKey? = some key) :
    next.work ≤ lanes.work + 48 := by
  obtain ⟨status, confirmation, -, desk, stage⟩ := step.recorded member records
  have price := jobCost_le status
  have rollback : ∀ owes, rollbackCost owes ≤ 24 := by
    intro owes
    cases owes <;> decide
  have latest : next.desk.speculativeState.get? key = some (status, lanes.desk.idCounter) := by
    rw [desk, AlarmStateCoordinator.record_speculativeState, FiniteMap.get?_insert_self]
  have others : ∀ other, other ≠ key → next.potential other ≤ lanes.potential other := by
    intro other different
    apply potential_unmoved
    · obtain ⟨_, queued⟩ | ⟨_, kept⟩ := stage
      · rw [queued, Function.update_of_ne different]
      · rw [kept]
    · rw [desk, AlarmStateCoordinator.record_speculativeState,
        FiniteMap.get?_insert_of_ne _ _ different]
    · intro held id found owes
      have older : id ≠ lanes.desk.idCounter := Nat.ne_of_lt (ledger.below (ledger.latest found))
      rwa [desk, FiniteMap.contains, AlarmStateCoordinator.record_pending,
        if_neg fun both => older both.1] at owes
  suffices paid : next.potential key + 0 ≤ lanes.potential key + 48 from work_trade key paid others
  obtain ⟨_, queued⟩ | ⟨⟨job, under⟩, kept⟩ := stage
  · have opened := potential_queued (by rw [queued, Function.update_self]) latest
    have owed := rollback (next.desk.pendingConfirmations.contains lanes.desk.idCounter)
    omega
  · have owed := rollback (next.desk.pendingConfirmations.contains lanes.desk.idCounter)
    have later : lanes.desk.idCounter ≠ job.id :=
      (Nat.ne_of_lt (ledger.below (ledger.job under).2)).symm
    rw [potential, potential, kept, latest, Stage.followCost_eq under, if_neg later]
    omega

end Lanes

/-- An input leaves the backlog and costs at most what it may record. -/
theorem Refines.input_work {pipeline next : Pipeline} {lanes nextLanes : Lanes}
    {out past : List Event} {hydratedStatuses : FiniteMap Key Status}
    (refines : Refines pipeline lanes)
    (ledger : Ledger hydratedStatuses past lanes.desk lanes.underway)
    (step : lanes.Step out nextLanes) {message : DomainInput} {now : Int}
    (fires : pipeline.step (.input message now) = some (next, out)) :
    next.backlog + nextLanes.work ≤ pipeline.backlog + lanes.work + 48 := by
  obtain ⟨turn, taken, rfl, rfl⟩ := Pipeline.turn_of_step fires
  cases taken with
  | input running =>
      rw [pipeline.coordinate_backlog]
      rw [refines.jobPort_eq, refines.desk] at step
      have mute : ∀ {handled : Handled}, handled.failure = none →
          (∀ event ∈ handled.events, event.Mute) →
          lanes.Step (pipeline.coordinate handled).2.2 nextLanes →
          nextLanes.work ≤ lanes.work + 48 := by
        intro handled ended silent step
        rw [Pipeline.coordinate_ok _ ended] at step
        exact (step.work_le_of_mute silent).trans (Nat.le_add_right _ _)
      have records : ∀ {key : Key} {status : Status} {confirmation : Option Confirmation},
          lanes.Step (pipeline.coordinate (lanes.desk.recorded key status confirmation)).2.2
            nextLanes → nextLanes.work ≤ lanes.work + 48 := by
        intro key status confirmation step
        rw [Pipeline.coordinate_ok _ (AlarmStateCoordinator.recorded_failure _ _ _ _)] at step
        exact step.records_work ledger List.mem_cons_self
          (AlarmStateCoordinator.recordEvent_recordKey? _ _ _ _)
      suffices bounded : nextLanes.work ≤ lanes.work + 48 by omega
      cases message with
      | snapshotRequest sender =>
          refine mute rfl (fun event member => ?_) step
          obtain rfl := List.mem_singleton.mp member
          trivial
      | automatedUpdate status =>
          rw [AlarmStateCoordinator.handleMessage,
            AlarmStateCoordinator.handleAutomatedUpdate_eq] at step
          split at step
          · exact records step
          · exact mute rfl (by simp [Handled.done]) step
      | userUpdate key action user confirmation =>
          rw [AlarmStateCoordinator.handleMessage,
            AlarmStateCoordinator.handleUserUpdate_eq] at step
          split at step
          · exact records step
          · exact mute rfl (by simp [Handled.done, Event.Mute]) step

namespace Runtime

variable {config : QueueCapacityConfig} {hydratedStatuses : FiniteMap Key Status}
  {self next : Runtime} {out : List Event} {effort : Nat}

/-- How many turns what is under way may still take. -/
def Effort (hydratedStatuses : FiniteMap Key Status) (self : Runtime) (effort : Nat) : Prop :=
  ∃ lanes past, Refines self.flatten lanes ∧
    Ledger hydratedStatuses past lanes.desk lanes.underway ∧
    effort = self.flatten.backlog + lanes.work

/-- A task that hands a message over takes no turn. -/
theorem Effort.accept (before : Effort hydratedStatuses self effort) {task : Task}
    (fires : self.step config (.accept task) = some (next, out)) :
    Effort hydratedStatuses next effort := by
  obtain ⟨_, absurd, -⟩ | ⟨-, same, -⟩ := flatten_step fires
  · cases absurd
  · rw [Effort, same]
    exact before

/-- An input adds what it may record. -/
theorem Effort.input (before : Effort hydratedStatuses self effort) {message : DomainInput}
    {now : Int} (fires : self.step config (.turn (.input message now)) = some (next, out)) :
    ∃ more, more ≤ effort + 48 ∧ Effort hydratedStatuses next more := by
  obtain ⟨lanes, past, refines, ledger, rfl⟩ := before
  obtain ⟨_, same, turns⟩ | ⟨⟨_, absurd⟩, -⟩ := flatten_step fires
  · obtain rfl := RuntimeAction.turn.inj same
    obtain ⟨nextLanes, step, after⟩ := refines.step turns
    exact ⟨_, refines.input_work ledger step turns, nextLanes, past ++ out, after,
      step.ledger ledger, rfl⟩
  · cases absurd

/-- Any other turn uses some of it up. -/
theorem Effort.turn (before : Effort hydratedStatuses self effort) {action : Action}
    (healthy : action.healthy = true) (unstranded : self.tasks.strands action = false)
    (fires : self.step config (.turn action) = some (next, out)) :
    ∃ less, less < effort ∧ Effort hydratedStatuses next less := by
  obtain ⟨lanes, past, refines, ledger, rfl⟩ := before
  obtain ⟨_, handled, same, -, taken, -, -⟩ | ⟨_, _, absurd, -⟩ := step_cases fires
  · obtain rfl := RuntimeAction.turn.inj same
    obtain ⟨_, same, turns⟩ | ⟨⟨_, absurd⟩, -⟩ := flatten_step fires
    · obtain rfl := RuntimeAction.turn.inj same
      obtain ⟨nextLanes, step, after⟩ := refines.step turns
      exact ⟨_, refines.lowers after ledger step healthy
        ((strands_flatten taken).trans unstranded) turns, nextLanes, past ++ out, after,
        step.ledger ledger, rfl⟩
    · cases absurd
  · cases absurd

end Runtime

/-- The message the coordinator took. -/
def UserIngress.Event.received? : UserIngress.Event → Option UserMessage
  | .received message => some message
  | _ => none

/-- While the receiver is there, a step appends to the queue or takes its first message. -/
theorem UserIngress.queue_moved {self next : UserIngress} {capacity : Nat}
    {action : UserIngress.Action} {out : List UserIngress.Event}
    (fires : self.step capacity action = some (next, out)) (stays : action ≠ .dropReceiver) :
    next.receiverAlive = self.receiverAlive ∧
      ((∃ sent, next.queue = self.queue ++ sent) ∧ out.filterMap Event.received? = [] ∨
        ∃ message, self.queue = message :: next.queue ∧
          out.filterMap Event.received? = [message]) := by
  cases action with
  | submit devices taken user =>
      simp only [step, submit, Option.some.injEq] at fires
      split at fires <;>
      · cases fires
        exact ⟨rfl, .inl ⟨⟨[], (List.append_nil _).symm⟩, rfl⟩⟩
  | trySend request =>
      obtain ⟨key, keys, taken, user, _, ⟨status, rfl, rfl⟩ | ⟨rfl, rfl⟩⟩ :=
        submitUpdate_cases fires
      · exact ⟨rfl, .inl ⟨⟨[], (List.append_nil _).symm⟩, rfl⟩⟩
      · refine ⟨rfl, .inl ⟨⟨_, rfl⟩, ?_⟩⟩
        split <;> rfl
  | requestSnapshot =>
      simp only [step] at fires
      obtain ⟨error, fails⟩ | ⟨-, sends⟩ :=
        trySend_cases { self with confirmations := self.confirmations + 1 } capacity
          ⟨none, .snapshotRequest self.confirmations⟩
      · rw [fails] at fires
        cases fires
        exact ⟨rfl, .inl ⟨⟨[], (List.append_nil _).symm⟩, rfl⟩⟩
      · rw [sends] at fires
        cases fires
        exact ⟨rfl, .inl ⟨⟨_, rfl⟩, rfl⟩⟩
  | receive =>
      simp only [step, Option.ite_none_right_eq_some] at fires
      obtain ⟨-, taken⟩ := fires
      split at taken
      · next message rest front =>
          cases taken
          exact ⟨rfl, .inr ⟨message, front, rfl⟩⟩
      · cases taken
  | dropReceiver => exact absurd rfl stays

/-- Only a turn of the coordinator takes a status out of the queue. -/
theorem AutomatedIngress.step_unheard {self next : AutomatedIngress} {capacity : Nat}
    {action : AutomatedIngress.Action} {out : List AutomatedIngress.Event}
    (fires : self.step capacity action = some (next, out)) (other : action ≠ .receive) :
    out.filterMap Event.received? = [] := by
  cases action with
  | receive => exact absurd rfl other
  | call status =>
      simp only [step] at fires
      split at fires <;> cases fires
      rfl
  | readMode =>
      simp only [step, readMode] at fires
      split at fires
      · split at fires <;> cases fires <;> rfl
      · cases fires
  | trySend =>
      simp only [step, trySend] at fires
      split at fires
      · split at fires <;> cases fires <;> rfl
      · cases fires
  | retain =>
      simp only [step, AutomatedIngress.retain] at fires
      split at fires <;> cases fires
      rfl
  | notified =>
      simp only [step, notified] at fires
      split at fires <;> cases fires
      rfl
  | popFront =>
      simp only [step, popFront] at fires
      split at fires
      · split at fires <;> cases fires <;> rfl
      · cases fires
  | send =>
      simp only [step, AutomatedIngress.send] at fires
      split at fires
      · split at fires <;> cases fires
        rfl
      · cases fires

namespace Service

variable {config : QueueCapacityConfig} {hydratedStatuses : FiniteMap Key Status}
  {self next : Service} {events out : List Event} {effort : Nat}

/-- The user messages the coordinator took. -/
def taken (events : List Event) : List UserMessage :=
  (events.filterMap Event.users?).filterMap UserIngress.Event.received?

/-- The automated messages the coordinator took. -/
def heard (events : List Event) : List Status :=
  (events.filterMap Event.automated?).filterMap AutomatedIngress.Event.received?

theorem taken_append (first second : List Event) :
    taken (first ++ second) = taken first ++ taken second := by
  simp [taken, List.filterMap_append]

theorem heard_append (first second : List Event) :
    heard (first ++ second) = heard first ++ heard second := by
  simp [heard, List.filterMap_append]

/-- A turn of a task of the runtime. -/
def Action.ofTask : Action → Bool
  | .takeUser _ | .takeAutomated _ | .turn _ => true
  | _ => false

/-- While the receiver is there, a step appends to the user queue or takes its first message. -/
theorem users_moved {action : Action} (fires : self.step config action = some (next, out))
    (stays : action ≠ .dropReceivers) :
    next.users.receiverAlive = self.users.receiverAlive ∧
      ((∃ sent, next.users.queue = self.users.queue ++ sent) ∧ taken out = [] ∨
        ∃ message, self.users.queue = message :: next.users.queue ∧ taken out = [message]) := by
  cases turn : (usersPart config).turn self action with
  | none =>
      obtain ⟨same, silent⟩ := (usersPart config).idle fires turn
      have users : next.users = self.users := same
      have unheard : out.filterMap Event.users? = [] := silent
      rw [users, taken, unheard]
      exact ⟨rfl, .inl ⟨⟨[], (List.append_nil _).symm⟩, rfl⟩⟩
  | some move =>
      refine UserIngress.queue_moved ((usersPart config).moves fires turn) ?_
      rintro rfl
      cases action with
      | request request =>
          simp only [usersPart] at turn
          split at turn <;> cases turn
      | dropReceivers => exact stays rfl
      | _ => cases turn

/-- An automated message is heard in its own turn only. -/
theorem heard_moved {action : Action} (fires : self.step config action = some (next, out)) :
    heard out = [] ∨ ∃ now status, action = .takeAutomated now ∧ heard out = [status] := by
  have unheard : ∀ {out : List AutomatedIngress.Event},
      out.filterMap AutomatedIngress.Event.received? = [] →
      heard (out.map Event.automated) = [] := by
    intro out silent
    rw [heard, List.filterMap_map, Event.automated?_automated, List.filterMap_some, silent]
  cases step_cases fires with
  | @takeAutomated now status rest runtime out queue turns =>
      refine .inr ⟨now, status, rfl, ?_⟩
      simp [heard, Event.automated?, AutomatedIngress.Event.received?]
  | call _ steps => exact .inl (unheard (AutomatedIngress.step_unheard steps (by simp)))
  | ingress internal steps =>
      refine .inl (unheard (AutomatedIngress.step_unheard steps ?_))
      rintro rfl
      cases internal
  | getSnapshot =>
      unfold getSnapshot
      simp only
      split <;> exact .inl rfl
  | skip | decline | dropReceivers | respond | respondSnapshot | abandonSnapshot => exact .inl rfl
  | reject | submit | trySend | takeUser | turn | accept =>
      exact .inl (by simp [heard, Event.automated?])

/-- A message that was not taken waits behind those ahead of it that were not taken either. -/
theorem still_waits {action : Action} {message : UserMessage} {ahead left more : List UserMessage}
    (running : self.runtime.tasks.coordinatorRunning = true)
    (alive : self.users.receiverAlive = true) (split : ahead = taken events ++ left)
    (queue : self.users.queue = left ++ message :: more)
    (fires : self.step config action = some (next, out))
    (waits : message ∉ taken (events ++ out)) :
    next.users.receiverAlive = true ∧ ∃ left more, ahead = taken (events ++ out) ++ left ∧
      next.users.queue = left ++ message :: more := by
  have stays : action ≠ .dropReceivers := by
    rintro rfl
    cases step_cases fires with
    | dropReceivers stopped =>
        rw [running] at stopped
        cases stopped
  obtain ⟨lives, ⟨⟨sent, grown⟩, silent⟩ | ⟨first, shrunk, heard⟩⟩ := users_moved fires stays
  · refine ⟨lives.trans alive, left, more ++ sent, ?_, ?_⟩
    · rw [taken_append, silent, List.append_nil]
      exact split
    · rw [grown, queue]
      simp
  · rw [queue] at shrunk
    cases left with
    | nil =>
        obtain ⟨rfl, -⟩ := List.cons.inj shrunk
        exact absurd (by simp [taken_append, heard]) waits
    | cons head left =>
        obtain ⟨rfl, same⟩ := List.cons.inj shrunk
        refine ⟨lives.trans alive, left, more, ?_, same.symm⟩
        rw [taken_append, heard, split]
        simp

/-- A step costs the turn it takes, and a message the coordinator takes what it may record. -/
theorem effort_spent {action : Action} (before : self.runtime.Effort hydratedStatuses effort)
    (serves : ∀ turn, action = .turn turn →
      turn.healthy = true ∧ self.runtime.tasks.strands turn = false)
    (fires : self.step config action = some (next, out)) :
    ∃ left, next.runtime.Effort hydratedStatuses left ∧
      action.ofTask.toNat + left ≤
        effort + 49 * ((taken out).length + (heard out).length) := by
  have quiet : ∀ {after : Service}, after.runtime = self.runtime → action.ofTask = false →
      ∃ left, after.runtime.Effort hydratedStatuses left ∧
        action.ofTask.toNat + left ≤
          effort + 49 * ((taken out).length + (heard out).length) := by
    intro after same idle
    refine ⟨effort, same ▸ before, ?_⟩
    rw [idle, Bool.toNat_false]
    omega
  cases step_cases fires with
  | skip | call | ingress | decline | reject | submit | trySend | dropReceivers | respond
  | respondSnapshot | abandonSnapshot => exact quiet rfl rfl
  | getSnapshot =>
      refine quiet ?_ rfl
      unfold getSnapshot
      simp only
      split <;> rfl
  | @takeUser now message rest runtime out alive queue turns =>
      obtain ⟨more, bound, after⟩ := before.input turns
      have heard : taken (.users (.received message) :: out.map .runtime) = [message] := by
        simp [taken, Event.users?, UserIngress.Event.received?]
      refine ⟨more, after, ?_⟩
      simp only [heard, Action.ofTask, Bool.toNat_true, List.length_singleton]
      omega
  | @takeAutomated now status rest runtime out queue turns =>
      obtain ⟨more, bound, after⟩ := before.input turns
      have heard : heard (.automated (.received status) :: out.map .runtime) = [status] := by
        simp [heard, Event.automated?, AutomatedIngress.Event.received?]
      refine ⟨more, after, ?_⟩
      simp only [heard, Action.ofTask, Bool.toNat_true, List.length_singleton]
      omega
  | @turn turn runtime out inner turns =>
      obtain ⟨healthy, unstranded⟩ := serves turn rfl
      obtain ⟨left, less, after⟩ := before.turn healthy unstranded turns
      refine ⟨left, after, ?_⟩
      simp only [Action.ofTask, Bool.toNat_true]
      omega
  | accept accepts =>
      refine ⟨effort, before.accept accepts, ?_⟩
      simp [Action.ofTask]

end Service

/-- The coordinator's loop as it is among the tasks, without the jobs it handed over. -/
def Pipeline.loop (self : Pipeline) : CoordinatorLoop where
  coordinator := self.coordinator
  running := self.coordinatorRunning
  jobPort := self.jobPort
  outstanding := []
  jobOutcomes := self.jobOutcomes

/-- The end of the coordinator's turn is the end of an iteration of its loop. -/
theorem Pipeline.finish_loop (self : Pipeline) (handled : Handled) :
    ∃ outstanding,
      (self.loop.finish handled).1 = { (self.coordinate handled).1.loop with outstanding } ∧
      (self.loop.finish handled).2 = (self.coordinate handled).2.2 := by
  cases failure : handled.failure with
  | none =>
      refine ⟨handled.jobs, ?_⟩
      simp [CoordinatorLoop.finish, coordinate, failure, loop, jobPort]
  | some cause =>
      refine ⟨[], ?_⟩
      simp [CoordinatorLoop.finish, coordinate, failure, loop, jobPort]

/-- A turn of the coordinator is an iteration of its loop. -/
theorem Runtime.turn_iterates {config : QueueCapacityConfig} {self next : Runtime} {action : Action}
    {out : List Event} (turns : self.step config (.turn action) = some (next, out))
    (coordinates : action.task = .coordinator) :
    ∃ iteration outstanding,
      self.tasks.loop.step iteration = some ({ next.tasks.loop with outstanding }, out) := by
  obtain ⟨_, handled, same, -, taken, rfl, rfl⟩ | ⟨_, _, absurd, -⟩ := Runtime.step_cases turns
  · obtain rfl := RuntimeAction.turn.inj same
    cases taken with
    | @input message now running =>
        obtain ⟨outstanding, ends, reports⟩ := self.tasks.finish_loop
          (self.tasks.coordinator.handleMessage self.tasks.jobPort now message)
        refine ⟨.message message now, outstanding, ?_⟩
        rw [← ends, ← reports]
        exact if_pos running
    | @jobOutcome now outcome rest queue running =>
        obtain ⟨outstanding, ends, reports⟩ :=
          Pipeline.finish_loop { self.tasks with jobOutcomes := rest }
            (self.tasks.coordinator.reconcileJobOutcome self.tasks.jobPort now outcome)
        refine ⟨.jobOutcome now, outstanding, ?_⟩
        rw [← ends, ← reports]
        have active : self.tasks.loop.running = true := running
        have waiting : self.tasks.loop.jobOutcomes = outcome :: rest := queue
        refine (if_pos active).trans ?_
        simp only [CoordinatorLoop.select, waiting, Option.map_some]
        rfl
    | _ => cases coordinates
  · cases absurd

/-- A poll that takes a message is an iteration of the coordinator's loop on it. -/
theorem Selecting.poll_iterates {config : QueueCapacityConfig} {self next : Selecting} {now : Int}
    {out : List Service.Event} (fires : self.step config (.poll now) = some (next, out))
    (held : self.empty = false) :
    ∃ iteration outstanding, self.service.runtime.tasks.loop.step iteration =
      some ({ next.service.runtime.tasks.loop with outstanding },
        out.filterMap Service.Event.runtime?) := by
  have reports : ∀ later : List Event,
      (later.map Service.Event.runtime).filterMap Service.Event.runtime? = later := by
    intro later
    rw [List.filterMap_map, Service.Event.runtime?_runtime, List.filterMap_some]
  have iterates : ∀ {action : AcornAlarms.Action} {runtime later},
      self.service.runtime.step config (.turn action) = some (runtime, later) →
      action.task = .coordinator → out.filterMap Service.Event.runtime? = later →
      ∃ iteration outstanding, self.service.runtime.tasks.loop.step iteration =
        some ({ runtime.tasks.loop with outstanding }, out.filterMap Service.Event.runtime?) := by
    rintro action runtime later turns coordinates rfl
    exact Runtime.turn_iterates turns coordinates
  cases step_cases fires with
  | skip _ empty => simp [empty] at held
  | take _ _ takes =>
      cases branch : self.branch with
      | jobPort =>
          rw [branch] at takes
          cases Service.step_cases takes with
          | turn inner turns => exact iterates turns rfl (reports _)
      | userRx =>
          rw [branch] at takes
          cases Service.step_cases takes with
          | takeUser alive queue turns =>
              exact iterates turns rfl ((List.filterMap_cons_none rfl).trans (reports _))
      | automatedRx =>
          rw [branch] at takes
          cases Service.step_cases takes with
          | takeAutomated queue turns =>
              exact iterates turns rfl ((List.filterMap_cons_none rfl).trans (reports _))

namespace Branch

/-- How many polls may find no message before the user channel is polled. -/
def idle : Branch → Nat
  | .userRx => 0
  | .jobPort => 1
  | .automatedRx => 2

/-- How many automated messages may be taken before the user channel is polled. -/
def overtakes : Branch → Nat
  | .automatedRx => 1
  | .jobPort | .userRx => 0

end Branch

namespace Selecting

open Service (taken heard taken_append heard_append heard_moved)

variable {config : QueueCapacityConfig} {hydratedStatuses : FiniteMap Key Status}
  {self next : Selecting} {events out : List Service.Event} {message : UserMessage}
  {ahead : List UserMessage} {effort : Nat} {branch : Branch} {action : Action}

/-- A poll of the coordinator or a turn of another task. -/
def Action.ofTask : Action → Bool
  | .poll _ => true
  | .other action => action.ofTask

/-- Publishes succeed and no job is stranded. -/
def serves (self : Selecting) : Action → Bool
  | .other (.turn action) => action.healthy && !self.service.runtime.tasks.strands action
  | _ => true

/-- A message still waits behind those of the ones ahead of it that were not taken, and every poll
and turn since is paid for. -/
structure Attending (hydratedStatuses : FiniteMap Key Status) (message : UserMessage)
    (ahead : List UserMessage) (effort : Nat) (branch : Branch) (actions : List Action)
    (events : List Service.Event) (reached : Selecting) : Prop where
  alive : reached.service.users.receiverAlive = true
  ordered : ∃ left more, ahead = taken events ++ left ∧
    reached.service.users.queue = left ++ message :: more
  overtaken : (heard events).length + reached.branch.overtakes ≤ branch.overtakes
  spent : ∃ left, reached.service.runtime.Effort hydratedStatuses left ∧
    actions.countP Action.ofTask + left + reached.branch.idle ≤
      effort + branch.idle + 50 * (taken events).length + 49 * (heard events).length

/-- Nothing is heard but on the automated branch. -/
theorem heard_overtakes (fires : self.step config action = some (next, out)) :
    (heard out).length + next.branch.overtakes ≤ self.branch.overtakes ∨
      self.branch = .userRx ∧ self.service.users.queue = [] := by
  cases step_cases fires with
  | skip _ empty =>
      cases branch : self.branch with
      | jobPort | automatedRx => exact .inl (by simp [heard, Branch.next, Branch.overtakes])
      | userRx => exact .inr ⟨rfl, by simpa [Selecting.empty, branch] using empty⟩
  | @take now service out _ _ takes =>
      obtain silent | ⟨now, status, turn, once⟩ := heard_moved takes
      · exact .inl (by simp [silent, Branch.overtakes])
      · cases branch : self.branch with
        | automatedRx => exact .inl (by simp [once, Branch.overtakes])
        | jobPort | userRx =>
            rw [branch] at turn
            cases turn
  | other others steps =>
      obtain silent | ⟨now, status, rfl, -⟩ := heard_moved steps
      · exact .inl (by simp [silent])
      · cases others

/-- A poll or a turn is paid for by what was under way and by the messages taken. -/
theorem polls_spent (before : self.service.runtime.Effort hydratedStatuses effort)
    (serves : self.serves action = true) (fires : self.step config action = some (next, out)) :
    (∃ left, next.service.runtime.Effort hydratedStatuses left ∧
      action.ofTask.toNat + left + next.branch.idle ≤
        effort + self.branch.idle + 50 * (taken out).length + 49 * (heard out).length) ∨
      self.branch = .userRx ∧ self.service.users.queue = [] := by
  cases step_cases fires with
  | skip _ empty =>
      cases branch : self.branch with
      | userRx => exact .inr ⟨rfl, by simpa [Selecting.empty, branch] using empty⟩
      | jobPort | automatedRx =>
          refine .inl ⟨effort, before, ?_⟩
          simp only [Branch.next, Branch.idle, Action.ofTask, Bool.toNat_true]
          omega
  | @take now service out _ _ takes =>
      refine .inl ?_
      have serves : ∀ turn, self.branch.turn now = .turn turn →
          turn.healthy = true ∧ self.service.runtime.tasks.strands turn = false := by
        intro turn same
        cases branch : self.branch <;> rw [branch] at same <;> cases same
        exact ⟨rfl, rfl⟩
      obtain ⟨left, after, cost⟩ := Service.effort_spent before serves takes
      refine ⟨left, after, ?_⟩
      cases branch : self.branch with
      | jobPort | automatedRx =>
          simp only [branch, Branch.turn, Service.Action.ofTask, Bool.toNat_true] at cost
          simp only [Branch.idle, Action.ofTask, Bool.toNat_true]
          omega
      | userRx =>
          rw [branch] at takes cost
          have one : (taken out).length = 1 := by
            cases Service.step_cases takes with
            | takeUser =>
                simp [taken, Service.Event.users?, UserIngress.Event.received?]
          simp only [Branch.turn, Service.Action.ofTask, Bool.toNat_true] at cost
          simp only [Branch.idle, Action.ofTask, Bool.toNat_true]
          omega
  | @other turn service out others steps =>
      refine .inl ?_
      obtain ⟨left, after, cost⟩ := Service.effort_spent before (by
        rintro turn rfl
        simpa [Selecting.serves] using serves) steps
      refine ⟨left, after, ?_⟩
      simp only [Action.ofTask]
      omega

theorem Attending.step {actions : List Action}
    (attending : Attending hydratedStatuses message ahead effort branch actions events self)
    (serves : self.serves action = true) (fires : self.step config action = some (next, out))
    (waits : message ∉ taken (events ++ out)) :
    Attending hydratedStatuses message ahead effort branch (actions ++ [action]) (events ++ out)
      next := by
  obtain ⟨alive, ⟨left, more, split, queue⟩, overtaken, rest, effortful, spent⟩ := attending
  have running : self.service.runtime.tasks.coordinatorRunning = true := by
    obtain ⟨lanes, -, refines, -⟩ := effortful
    exact refines.coordinatorRunning
  have busy : ¬(self.branch = .userRx ∧ self.service.users.queue = []) := by
    rintro ⟨-, empty⟩
    simp [queue] at empty
  obtain ⟨lives, ordered⟩ : next.service.users.receiverAlive = true ∧ ∃ left more,
      ahead = taken (events ++ out) ++ left ∧
        next.service.users.queue = left ++ message :: more := by
    cases step_cases fires with
    | skip => exact ⟨alive, left, more, by simpa using split, queue⟩
    | take _ _ takes => exact Service.still_waits running alive split queue takes waits
    | other _ steps => exact Service.still_waits running alive split queue steps waits
  have overtakes := (heard_overtakes fires).resolve_right busy
  obtain ⟨later, after, cost⟩ := (polls_spent effortful serves fires).resolve_right busy
  have counted : (actions ++ [action]).countP Action.ofTask =
      actions.countP Action.ofTask + action.ofTask.toNat := by
    rw [List.countP_append, List.countP_singleton]
    cases action.ofTask <;> rfl
  refine ⟨lives, ordered, ?_, later, after, ?_⟩
  · rw [heard_append, List.length_append]
    omega
  · rw [counted, taken_append, heard_append, List.length_append, List.length_append]
    omega

end Selecting

end

section

attribute [local instance] asciiPlatform

namespace Selecting

open Service (taken heard carry)

/-- A reading of the pump arrives. -/
def reading (severity : String) : List Action :=
  [.other (.entry (pumpEntry severity) 0), .other (.ingress .readMode), .other (.ingress .trySend)]

/-- The second reading is taken, and then the first update. -/
def overtaken : List Action := [.poll 0, .poll 0, .poll 0]

end Selecting

end

end AcornAlarms
