import AcornAlarms.Lanes.Progress
import AcornAlarms.Properties.Waiting

/-!
# How the bounded service comes to rest

Once publishes succeed and no input arrives, the tasks joined by bounded channels do not go on
for ever. Where they can do nothing more they are done, or two of them wait for each other; and
such a wait is final.
-/

namespace AcornAlarms

open Library

section

variable [Platform]

namespace Sent

/-- How many messages the tasks have yet to send. -/
def length (sent : Sent) : Nat :=
  sent.jobs.length + sent.work.length + sent.snoozeOutcomes.length + sent.publishOutcomes.length

/-- An accepted message is no longer to be sent. -/
theorem rest_length {sent : Sent} {task : Task} {channel : Channel}
    (sending : sent.sending task = some channel) : (sent.rest task).length + 1 = sent.length := by
  obtain ⟨jobs, work, snoozes, publishes⟩ := sent
  cases task with
  | coordinator =>
      cases jobs with
      | nil => cases sending
      | cons => simp [rest, length]; omega
  | handler =>
      cases work with
      | nil => cases sending
      | cons => simp [rest, length]; omega
  | scheduler =>
      cases snoozes with
      | nil => cases sending
      | cons => simp [rest, length]; omega
  | engine =>
      cases publishes with
      | nil => cases sending
      | cons => simp [rest, length]; omega

/-- Tasks that send nothing have nothing to send. -/
theorem eq_none_of_idle {sent : Sent} (idle : ∀ task, sent.sending task = Option.none) :
    sent = .none := by
  obtain ⟨jobs, work, snoozes, publishes⟩ := sent
  have empty : jobs = [] ∧ work = [] ∧ snoozes = [] ∧ publishes = [] := by
    have jobs := idle .coordinator
    have work := idle .handler
    have snoozes := idle .scheduler
    have publishes := idle .engine
    simp only [sending, Option.map_eq_none_iff,
      List.head?_eq_none_iff] at jobs work snoozes publishes
    exact ⟨jobs, work, snoozes, publishes⟩
  obtain ⟨rfl, rfl, rfl, rfl⟩ := empty
  rfl

/-- What the handler sends goes to one of three channels. -/
theorem length_work (work : List WorkflowSend) : work.length =
    (work.filterMap WorkflowSend.outcome?).length + (work.filterMap WorkflowSend.publish?).length +
      (work.filterMap WorkflowSend.snooze?).length := by
  induction work with
  | nil => rfl
  | cons message rest ih =>
      cases message <;>
        simp [List.filterMap_cons, WorkflowSend.outcome?, WorkflowSend.publish?,
          WorkflowSend.snooze?, ih] <;> omega

end Sent

/-- A lane with a job has something left to do. -/
theorem Lanes.active_le_work (lanes : Lanes) :
    lanes.desk.speculativeState.keys.length ≤ lanes.work := by
  have card : lanes.active.card = lanes.desk.speculativeState.keys.length := by
    rw [active, List.toFinset_card_of_nodup (FiniteMap.keys_nodup _)]
  rw [← card, Finset.card_eq_sum_ones, work]
  apply Finset.sum_le_sum
  intro key member
  have busy := lanes.busy key
  rw [(FiniteMap.mem_keys_iff _ _).mp (List.mem_toFinset.mp member)] at busy
  rw [potential]
  cases stage : lanes.stage key with
  | idle =>
      rw [stage] at busy
      cases busy
  | queued | snoozing =>
      simp only [Stage.cost, jobCost]
      omega
  | _ =>
      simp only [Stage.cost]
      omega

/-- Every notice is in the backlog, and every key with speculative state has work left. -/
theorem Refines.load_le {pipeline : Pipeline} {lanes : Lanes} (refines : Refines pipeline lanes) :
    pipeline.load ≤ pipeline.backlog + lanes.work := by
  have elapsed : ∀ outcomes : List SnoozeOutcome,
      (outcomes.filterMap SnoozeOutcome.elapsed?).length =
        outcomes.countP SnoozeOutcome.isExpired := by
    intro outcomes
    induction outcomes with
    | nil => rfl
    | cons outcome rest ih =>
        cases outcome <;>
          simp [List.filterMap_cons, List.countP_cons, SnoozeOutcome.elapsed?,
            SnoozeOutcome.isExpired, ih]
  have woken : ∀ outcomes : List JobOutcome,
      (outcomes.filterMap JobOutcome.woken?).length = outcomes.countP JobOutcome.isWake := by
    intro outcomes
    induction outcomes with
    | nil => rfl
    | cons outcome rest ih =>
        cases outcome <;>
          simp [List.filterMap_cons, List.countP_cons, JobOutcome.woken?, JobOutcome.isWake, ih]
  have keys := lanes.active_le_work
  rw [← refines.desk] at keys
  simp only [Pipeline.load, Pipeline.notices, Pipeline.backlog, List.length_append, elapsed, woken]
  omega

namespace Channel

/-- The task that takes from a channel. -/
def receiver : Channel → Task
  | .job | .publishOutcome | .snoozeOutcome => .handler
  | .jobOutcome => .coordinator
  | .publish => .engine
  | .snooze => .scheduler

end Channel

/-- The messages of one task. -/
def Sent.of (sent : Sent) : Task → Sent
  | .coordinator => .byCoordinator sent.jobs
  | .handler => .byHandler sent.work
  | .scheduler => .byScheduler sent.snoozeOutcomes
  | .engine => .byEngine sent.publishOutcomes

namespace Pipeline

variable {self : Pipeline} {action : Action} {turn : Pipeline × Sent × List Event}

/-- A task sends nothing in the name of another. -/
theorem Turn.sent_of (taken : self.Turn action turn) : turn.2.1 = turn.2.1.of action.task := by
  have coordinated : ∀ (popped : Pipeline) (handled : Handled),
      (popped.coordinate handled).2.1 = (popped.coordinate handled).2.1.of .coordinator := by
    intro popped handled
    unfold coordinate
    split <;> rfl
  have worked : ∀ (popped : Pipeline) (result : Except String Worked),
      (popped.work result).2.1 = (popped.work result).2.1.of .handler := by
    intro popped result
    cases result <;> rfl
  have scheduled : ∀ (popped : Pipeline) (input : SnoozeInput)
      (result : Except String (SnoozeScheduler × SnoozeOutcome)),
      (popped.schedule input result).2.1 = (popped.schedule input result).2.1.of .scheduler := by
    intro popped input result
    cases result <;> rfl
  cases taken with
  | input | jobOutcome => exact coordinated _ _
  | publishOutcome | snoozeOutcome | job => exact worked _ _
  | snoozeInput => exact scheduled _ _ _
  | expiry | completion | flush | publish => rfl

/-- A task takes from its own channels. -/
theorem Turn.queued_eq (taken : self.Turn action turn) {channel : Channel}
    (other : channel.receiver ≠ action.task) : turn.1.queued channel = self.queued channel := by
  have coordinated : ∀ (popped : Pipeline) (handled : Handled),
      (popped.coordinate handled).1.queued channel = popped.queued channel := by
    intro popped handled
    unfold coordinate
    split <;> cases channel <;> rfl
  have worked : ∀ (popped : Pipeline) (result : Except String Worked),
      (popped.work result).1.queued channel = popped.queued channel := by
    intro popped result
    cases result <;> cases channel <;> rfl
  have scheduled : ∀ (popped : Pipeline) (input : SnoozeInput)
      (result : Except String (SnoozeScheduler × SnoozeOutcome)),
      (popped.schedule input result).1.queued channel = popped.queued channel := by
    intro popped input result
    cases result <;> cases channel <;> rfl
  cases taken with
  | input => exact coordinated _ _
  | jobOutcome => cases channel <;> first | exact coordinated _ _ | exact absurd rfl other
  | publishOutcome | snoozeOutcome | job =>
      cases channel <;> first | exact worked _ _ | exact absurd rfl other
  | snoozeInput => cases channel <;> first | exact scheduled _ _ _ | exact absurd rfl other
  | expiry | completion | flush => cases channel <;> rfl
  | publish => cases channel <;> first | rfl | exact absurd rfl other

/-- Only a turn of the handler changes the handler. -/
theorem Turn.handler_eq (taken : self.Turn action turn) (other : action.task ≠ .handler) :
    turn.1.handler = self.handler := by
  cases taken with
  | input | jobOutcome =>
      unfold coordinate
      split <;> rfl
  | publishOutcome | snoozeOutcome | job => exact absurd rfl other
  | @snoozeInput clock input rest =>
      cases { self with snoozeInputs := rest }.scheduler.handleSnoozeInput clock input <;> rfl
  | expiry | completion | flush | publish => rfl

theorem queued_deliver (sent : Sent) (channel : Channel) :
    self.queued channel ≤ (self.deliver sent).queued channel := by
  cases channel <;> simp [queued, deliver]

end Pipeline

namespace Sent

variable {sent : Sent} {task other : Task}

/-- What a task is sending is among its own messages. -/
theorem sending_of (sent : Sent) (task : Task) :
    (sent.of task).sending task = sent.sending task := by
  cases task <;> rfl

/-- What another task sends is not among what a task has yet to send. -/
theorem of_append_of (sent later : Sent) (different : other ≠ task) :
    (sent.append (later.of task)).of other = sent.of other := by
  cases task <;> cases other <;>
    first
      | exact absurd rfl different
      | simp [append, of, byCoordinator, byHandler, byScheduler, byEngine, none]

/-- An accepted message leaves what the other tasks have yet to send. -/
theorem of_rest (sent : Sent) (different : other ≠ task) :
    (sent.rest task).of other = sent.of other := by
  cases task <;> cases other <;> first | exact absurd rfl different | rfl

/-- Two outboxes with the same messages of a task send the same in its name. -/
theorem sending_congr {later : Sent} (same : later.of task = sent.of task) :
    later.sending task = sent.sending task := by
  rw [← sending_of, same, sending_of]

/-- The other tasks send to the handler only. -/
theorem receiver_of_sending {channel : Channel} (sending : sent.sending task = some channel)
    (different : task ≠ .handler) : channel.receiver = .handler := by
  cases task with
  | handler => exact absurd rfl different
  | coordinator | scheduler | engine =>
      obtain ⟨-, -, rfl⟩ := Option.map_eq_some_iff.mp sending
      rfl

end Sent

namespace Runtime

variable {config : QueueCapacityConfig} {self next : Runtime} {out : List Event}

/-- What a step does to the messages yet to be sent and to the channels. -/
theorem step_cases {action : RuntimeAction} (fires : self.step config action = some (next, out)) :
    (∃ turn handled, action = .turn turn ∧ self.pending.sending turn.task = none ∧
        self.tasks.Turn turn handled ∧ next = ⟨handled.1, self.pending.append handled.2.1⟩ ∧
        out = handled.2.2) ∨
      ∃ task channel, action = .accept task ∧ self.pending.sending task = some channel ∧
        self.tasks.queued channel < config.capacity channel ∧ out = [] ∧
        next = ⟨self.tasks.deliver (self.pending.first task), self.pending.rest task⟩ := by
  cases action with
  | turn turn =>
      simp only [step, Option.ite_none_right_eq_some, Option.map_eq_some_iff] at fires
      obtain ⟨free, handled, handles, same⟩ := fires
      cases same
      exact .inl ⟨turn, handled, rfl, free, Pipeline.turn_of_handle handles, rfl, rfl⟩
  | accept task =>
      simp only [step] at fires
      split at fires
      · next channel sending =>
          simp only [Option.ite_none_right_eq_some, Option.some.injEq, Prod.mk.injEq] at fires
          obtain ⟨room, rfl, rfl⟩ := fires
          exact .inr ⟨task, channel, rfl, sending, room, rfl, rfl⟩
      · cases fires

/-- A task that waits takes no turn. -/
theorem Blocked.turnless {task : Task} {channel : Channel} {action : Action}
    (blocked : self.Blocked config task channel)
    (fires : self.step config (.turn action) = some (next, out)) : action.task ≠ task := by
  obtain ⟨turn, -, same, free, -⟩ | ⟨_, _, absurd, -⟩ := step_cases fires
  · obtain rfl := RuntimeAction.turn.inj same
    rintro rfl
    rw [blocked.1] at free
    cases free
  · cases absurd

/-- A task that waits goes on offering the same messages. -/
theorem Blocked.offers {task : Task} {channel : Channel} {action : RuntimeAction}
    (blocked : self.Blocked config task channel)
    (fires : self.step config action = some (next, out)) :
    next.pending.of task = self.pending.of task := by
  obtain ⟨turn, handled, rfl, -, taken, rfl, -⟩ | ⟨sender, accepts, rfl, sends, room, -, rfl⟩ :=
    step_cases fires
  · rw [taken.sent_of]
    exact Sent.of_append_of _ _ (blocked.turnless fires).symm
  · refine Sent.of_rest _ ?_
    rintro rfl
    obtain rfl : channel = accepts := Option.some.inj (blocked.1.symm.trans sends)
    exact Nat.not_lt.mpr blocked.2 room

/-- A task that waits goes on waiting while the receiver is inside a send. -/
theorem Blocked.step {task : Task} {channel : Channel} {action : RuntimeAction}
    (blocked : self.Blocked config task channel)
    (engaged : self.pending.sending channel.receiver ≠ none)
    (fires : self.step config action = some (next, out)) : next.Blocked config task channel := by
  refine ⟨(Sent.sending_congr (blocked.offers fires)).trans blocked.1, blocked.2.trans ?_⟩
  obtain ⟨turn, handled, rfl, free, taken, rfl, -⟩ | ⟨sender, accepts, rfl, sends, room, -, rfl⟩ :=
    step_cases fires
  · have elsewhere : channel.receiver ≠ turn.task := by
      intro receives
      exact engaged (receives ▸ free)
    exact (taken.queued_eq elsewhere).ge
  · exact Pipeline.queued_deliver _ channel

/-- A blocked task is inside a send. -/
theorem Blocked.engaged {task : Task} {channel : Channel}
    (blocked : self.Blocked config task channel) : self.pending.sending task ≠ none := by
  rw [blocked.1]
  exact Option.some_ne_none channel

/-- Two tasks that wait for each other go on waiting. -/
theorem CircularWait.step {action : RuntimeAction} (wait : self.CircularWait config)
    (fires : self.step config action = some (next, out)) : next.CircularWait config := by
  cases wait with
  | jobs dispatch report =>
      exact .jobs (dispatch.step report.engaged fires) (report.step dispatch.engaged fires)
  | publishes request report =>
      exact .publishes (request.step report.engaged fires) (report.step request.engaged fires)
  | snoozes command report =>
      exact .snoozes (command.step report.engaged fires) (report.step command.engaged fires)

/-- One of the two is the handler. -/
theorem CircularWait.handler (wait : self.CircularWait config) :
    ∃ channel, self.Blocked config .handler channel := by
  cases wait with
  | jobs _ report => exact ⟨_, report⟩
  | publishes request _ => exact ⟨_, request⟩
  | snoozes command _ => exact ⟨_, command⟩

/-- Whatever a task waits for, the receiver is inside a send: the others wait for the handler, and
the handler for the task that waits for it. -/
theorem CircularWait.engaged (wait : self.CircularWait config) {task : Task} {channel : Channel}
    (blocked : self.Blocked config task channel) :
    self.pending.sending channel.receiver ≠ none := by
  by_cases handler : task = .handler
  · subst handler
    have sends : ∀ {other}, self.Blocked config .handler other → other = channel :=
      fun other => Option.some.inj (other.1.symm.trans blocked.1)
    cases wait with
    | jobs dispatch report =>
        obtain rfl := sends report
        exact dispatch.engaged
    | publishes request report =>
        obtain rfl := sends request
        exact report.engaged
    | snoozes command report =>
        obtain rfl := sends command
        exact report.engaged
  · rw [Sent.receiver_of_sending blocked.1 handler]
    obtain ⟨_, waits⟩ := wait.handler
    exact waits.engaged

/-- No channel accepts a message, and no task has a message or a returning attempt to take.
Timers may be pending. -/
def Stuck (config : QueueCapacityConfig) (self : Runtime) : Prop :=
  (∀ task, self.step config (.accept task) = none) ∧
    ∀ action, action.healthy = true → (∀ clock slot, action ≠ .expiry clock slot) →
      self.step config (.turn action) = none

/-- Where nothing is accepted, a task that sends is blocked. -/
theorem Stuck.blocked (stuck : self.Stuck config) {task : Task} {channel : Channel}
    (sending : self.pending.sending task = some channel) :
    self.Blocked config task channel := by
  have still := stuck.1 task
  simp only [step, sending] at still
  split at still
  · cases still
  · next full => exact ⟨sending, Nat.le_of_not_lt full⟩

/-- A task whose turn is due is inside a send. -/
theorem Stuck.engaged (stuck : self.Stuck config) {action : Action}
    {turn : Pipeline × Sent × List Event} (taken : self.tasks.Turn action turn)
    (healthy : action.healthy = true) (timeless : ∀ clock slot, action ≠ .expiry clock slot) :
    ∃ channel, self.pending.sending action.task = some channel := by
  have still := stuck.2 action healthy timeless
  rw [step, taken.handle_eq] at still
  split at still
  · cases still
  · next sends => exact Option.ne_none_iff_exists'.mp sends

/-- The receiver of a full channel is itself inside a send. -/
theorem Stuck.receiver {lanes : Lanes} (stuck : self.Stuck config)
    (refines : Refines self.flatten lanes) (positive : config.Positive) {task : Task}
    {channel : Channel} (blocked : self.Blocked config task channel) :
    ∃ other, self.pending.sending channel.receiver = some other := by
  obtain ⟨-, -, jobs, publishes, snoozes⟩ := positive
  have full := blocked.2
  have filled : ∀ {α : Type} {queue : List α}, 0 < queue.length →
      ∃ message rest, queue = message :: rest :=
    fun some => List.exists_cons_of_length_pos some
  cases channel with
  | job =>
      obtain ⟨_, _, queue⟩ := filled (Nat.lt_of_lt_of_le jobs full)
      exact stuck.engaged (.job queue refines.handlerRunning) rfl (by simp)
  | jobOutcome =>
      obtain ⟨_, _, queue⟩ := filled (Nat.lt_of_lt_of_le jobs full)
      have taken : self.tasks.Turn (.jobOutcome 0) _ := .jobOutcome queue refines.coordinatorRunning
      exact stuck.engaged taken rfl (by simp)
  | publish =>
      obtain ⟨_, _, queue⟩ := filled (Nat.lt_of_lt_of_le publishes full)
      exact stuck.engaged (.publish queue) rfl (by simp)
  | publishOutcome =>
      obtain ⟨_, _, queue⟩ := filled (Nat.lt_of_lt_of_le publishes full)
      exact stuck.engaged (.publishOutcome queue refines.handlerRunning) rfl (by simp)
  | snooze =>
      obtain ⟨_, _, queue⟩ := filled (Nat.lt_of_lt_of_le snoozes full)
      have taken : self.tasks.Turn (.snoozeInput ⟨0, 0⟩) _ :=
        .snoozeInput queue refines.schedulerRunning
      exact stuck.engaged taken rfl (by simp)
  | snoozeOutcome =>
      obtain ⟨_, _, queue⟩ := filled (Nat.lt_of_lt_of_le snoozes full)
      exact stuck.engaged (.snoozeOutcome queue refines.handlerRunning) rfl (by simp)

/-- Where nothing more happens, two tasks wait for each other or all has been sent. -/
theorem Stuck.waits {lanes : Lanes} (stuck : self.Stuck config)
    (refines : Refines self.flatten lanes) (positive : config.Positive) :
    self.CircularWait config ∨ self.pending = .none := by
  have sends : ∀ {task channel}, self.pending.sending task = some channel →
      ∃ other, self.pending.sending channel.receiver = some other :=
    fun sending => stuck.receiver refines positive (stuck.blocked sending)
  cases handler : self.pending.sending .handler with
  | none =>
      refine .inr (Sent.eq_none_of_idle fun task => ?_)
      cases sending : self.pending.sending task with
      | none => rfl
      | some channel =>
          obtain ⟨other, back⟩ := sends sending
          rw [Sent.receiver_of_sending sending, handler] at back
          · cases back
          · rintro rfl
            rw [handler] at sending
            cases sending
  | some channel =>
      have request := stuck.blocked handler
      obtain ⟨other, back⟩ := sends handler
      have answer := stuck.blocked back
      obtain ⟨message, -, rfl⟩ := Option.map_eq_some_iff.mp handler
      cases message with
      | outcome =>
          obtain ⟨-, -, rfl⟩ := Option.map_eq_some_iff.mp back
          exact .inl (.jobs answer request)
      | publish =>
          obtain ⟨-, -, rfl⟩ := Option.map_eq_some_iff.mp back
          exact .inl (.publishes request answer)
      | snooze =>
          obtain ⟨-, -, rfl⟩ := Option.map_eq_some_iff.mp back
          exact .inl (.snoozes request answer)

/-- Where nothing more happens and nothing is left to send, nothing is under way. -/
theorem Stuck.vacant {lanes : Lanes} (stuck : self.Stuck config)
    (refines : Refines self.flatten lanes) (sent : self.pending = .none) :
    self.tasks.Vacant := by
  have whole : self.flatten = self.tasks := by simp [flatten, sent, Pipeline.deliver, Sent.none]
  rw [← whole]
  refine refines.vacant fun action healthy timeless => ?_
  cases fires : self.flatten.step action with
  | none => rfl
  | some reached =>
      obtain ⟨turn, taken, -, -⟩ := Pipeline.turn_of_step fires
      obtain ⟨channel, sending⟩ := stuck.engaged (whole ▸ taken) healthy timeless
      rw [sent] at sending
      cases task : action.task <;> rw [task] at sending <;> cases sending

/-- Whether a turn takes no input, fails no publish attempt and strands no job. -/
def recovers (self : Runtime) : RuntimeAction → Bool
  | .turn action => action.healthy && !self.tasks.strands action
  | .accept _ => true

/-- No input arrives, every publish attempt succeeds and the scheduler strands no job. -/
def Recovers : List Event → Runtime → RuntimeAction → Prop :=
  fun _ self action => self.recovers action = true

/-- A turn strands a job whatever else is to be sent. -/
theorem strands_flatten {action : Action} {turn : Pipeline × Sent × List Event}
    (taken : self.tasks.Turn action turn) :
    self.flatten.strands action = self.tasks.strands action := by
  cases taken with
  | snoozeInput queue _ => simp [Pipeline.strands, flatten, Pipeline.deliver, queue]
  | _ => rfl

/-- What is left to send is about the load. -/
theorem pending_le {lanes : Lanes} (refines : Refines self.flatten lanes)
    (reported : self.flatten.Reported) : self.pending.length ≤ 3 * self.flatten.load := by
  have jobs := refines.jobs_le
  have publishes := refines.publishes_le reported
  have snoozes := refines.snoozes_le
  have work := Sent.length_work self.pending.work
  generalize self.flatten.load = load at *
  simp only [flatten, Pipeline.deliver, List.length_append] at jobs publishes snoozes
  rw [Sent.length]
  omega

/-- The squared work of the flattened pipeline outweighs all it may yet send. -/
structure Rank (hydratedStatuses : FiniteMap Key Status) (self : Runtime) (weight : Nat) :
    Prop where
  described : ∃ lanes past, Refines self.flatten lanes ∧
    Ledger hydratedStatuses past lanes.desk lanes.underway ∧
    weight = 2 * ((self.flatten.backlog + lanes.work) * (self.flatten.backlog + lanes.work)) +
      self.pending.length
  reported : self.flatten.Reported

/-- Every recovering step lowers the rank. -/
theorem Rank.lowers {hydratedStatuses : FiniteMap Key Status} {weight : Nat} {past : List Event}
    {action : RuntimeAction} (rank : Rank hydratedStatuses self weight)
    (recovers : Recovers past self action) (fires : self.step config action = some (next, out)) :
    ∃ lower, lower < weight ∧ Rank hydratedStatuses next lower := by
  obtain ⟨⟨lanes, earlier, refines, ledger, rfl⟩, reported⟩ := rank
  have flattens := flatten_step fires
  obtain ⟨turn, handled, rfl, -, taken, -, -⟩ | ⟨sender, accepts, rfl, sends, -, -, rfl⟩ :=
    step_cases fires
  · have serves : (turn.healthy && !self.tasks.strands turn) = true := recovers
    obtain ⟨healthy, unstranded⟩ := Bool.and_eq_true_iff.mp serves
    obtain ⟨_, same, turns⟩ | ⟨⟨_, absurd⟩, -⟩ := flattens
    · obtain rfl := RuntimeAction.turn.inj same
      obtain ⟨nextLanes, step, after⟩ := refines.step turns
      have less := refines.lowers after ledger step healthy
        ((strands_flatten taken).trans (Bool.not_eq_true' _ |>.mp unstranded)) turns
      have later := reported.step turns
      have sent := pending_le after later
      have load := after.load_le
      refine ⟨_, ?_, ⟨nextLanes, earlier ++ out, after, step.ledger ledger, rfl⟩, later⟩
      generalize next.flatten.backlog + nextLanes.work = left at *
      generalize self.flatten.backlog + lanes.work = before at *
      -- A turn of rank one less sends at most three messages for what is left of it.
      have square : (left + 1) * (left + 1) ≤ before * before := Nat.mul_le_mul less less
      rw [Nat.add_one_mul, Nat.mul_add_one] at square
      omega
    · cases absurd
  · obtain ⟨_, absurd, -⟩ | ⟨-, same, -⟩ := flattens
    · cases absurd
    · refine ⟨_, ?_, ⟨lanes, earlier, same ▸ refines, ledger, rfl⟩, same ▸ reported⟩
      have shorter := Sent.rest_length sends
      rw [same]
      exact Nat.add_lt_add_left (Nat.lt_of_succ_le shorter.le) _

end Runtime

/-- From every state of the bounded service, the runs in which publishes succeed, no input
arrives and no job is stranded are bounded, and one that can do nothing more leaves nothing under
way, unless the handler and another task wait for each other, which takes more jobs and elapsed
timers than two channels hold. -/
theorem bounded_runs_complete {config : QueueCapacityConfig} (positive : config.Positive)
    {hydratedStatuses : FiniteMap Key Status}
    {admits : List Event → Runtime → RuntimeAction → Prop} {actions : List RuntimeAction}
    {events : List Event} {self : Runtime}
    (reached : (Runtime.machine config).Run admits (.start hydratedStatuses) actions events self) :
    ∃ bound, ∀ later more final,
      (Runtime.machine config).Run Runtime.Recovers self later more final →
      later.length ≤ bound ∧
        (final.Stuck config →
          (final.CircularWait config ∧ 2 * config.narrowest + 2 ≤ final.flatten.load) ∨
            (final.pending = .none ∧ final.tasks.Vacant)) := by
  obtain ⟨_, run⟩ := (Runtime.pipelinePart config).run_every reached
  obtain ⟨lanes, refines, ledger⟩ := Pipeline.ledger run
  have reported : self.flatten.Reported :=
    run.invariant Pipeline.Reported (Pipeline.Reported.start hydratedStatuses)
      fun before _ fires => before.step fires
  obtain ⟨weight, rank⟩ : ∃ weight, self.Rank hydratedStatuses weight :=
    ⟨_, ⟨lanes, _, refines, ledger, rfl⟩, reported⟩
  refine ⟨weight, fun later more final recovering => ?_⟩
  obtain ⟨left, ⟨⟨finalLanes, _, finalRefines, _, _⟩, finalReported⟩, bound⟩ :=
    recovering.length_le (Runtime.Rank hydratedStatuses) rank
      fun rank recovers fires => rank.lowers recovers fires
  refine ⟨by omega, fun stuck => ?_⟩
  obtain wait | sent := stuck.waits finalRefines positive
  · exact .inl ⟨wait, wait.load finalRefines finalReported⟩
  · exact .inr ⟨sent, stuck.vacant finalRefines sent⟩

/-- The job outcome the coordinator reports to have taken. -/
def Event.reconciled? : Event → Option JobOutcome
  | .committed job => some (.committed job)
  | .failed job => some (.failed job)
  | .woke key => some (.wake key)
  | _ => none

namespace AlarmStateCoordinator

variable (self : AlarmStateCoordinator)

/-- A recorded status reconciles nothing. -/
theorem recorded_reconciled (key : Key) (status : Status) (confirmation : Option Confirmation) :
    (self.recorded key status confirmation).events.filterMap Event.reconciled? = [] := by
  refine List.filterMap_eq_nil_iff.mpr fun event member => ?_
  obtain rfl | sent := List.mem_cons.mp member
  · cases confirmation <;> rfl
  · obtain ⟨job, -, rfl⟩ := List.mem_map.mp sent
    rfl

theorem handleAutomatedUpdate_reconciled (status : Status) :
    (self.handleAutomatedUpdate ⟨true⟩ status).events.filterMap Event.reconciled? = [] := by
  rw [handleAutomatedUpdate_eq]
  split
  · exact self.recorded_reconciled _ status none
  · rfl

/-- An input reconciles nothing. -/
theorem handleMessage_reconciled (now : Int) (message : DomainInput) :
    (self.handleMessage ⟨true⟩ now message).failure = none ∧
      (self.handleMessage ⟨true⟩ now message).events.filterMap Event.reconciled? = [] := by
  cases message with
  | snapshotRequest => exact ⟨rfl, rfl⟩
  | automatedUpdate status =>
      refine ⟨?_, self.handleAutomatedUpdate_reconciled status⟩
      rw [handleMessage, handleAutomatedUpdate_eq]
      split <;> rfl
  | userUpdate key action user confirmation =>
      rw [handleMessage, handleUserUpdate_eq]
      split
      · exact ⟨rfl, self.recorded_reconciled _ _ _⟩
      · exact ⟨rfl, rfl⟩

/-- The outcome of a job with speculative state reconciles that job. -/
theorem reconcile_reconciled {job : Job} {entry : Status × Nat}
    (found : self.speculativeState.get? job.key = some entry) (now : Int) (ok : Bool) :
    (self.reconcileJobOutcome ⟨true⟩ now (job.outcome ok)).events.filterMap Event.reconciled? =
      [job.outcome ok] := by
  have answered : ∀ answer, (self.settleEvents job answer).filterMap Event.reconciled? = [] := by
    intro answer
    unfold settleEvents resolve
    split <;> rfl
  have dispatched : ∀ jobs : List Job,
      (jobs.map Event.dispatched).filterMap Event.reconciled? = [] := by
    intro jobs
    induction jobs with
    | nil => rfl
    | cons first rest ih => exact ih
  obtain ⟨status, id⟩ := entry
  cases ok with
  | false =>
      rw [Job.outcome, reconcileJobOutcome, self.reconcileFailure_eq job found]
      simp [answered, dispatched, Event.reconciled?]
  | true =>
      by_cases last : id = job.id
      · subst last
        rw [Job.outcome, reconcileJobOutcome, self.reconcileSuccess_last job found]
        simp [answered, Event.reconciled?]
      · rw [Job.outcome, reconcileJobOutcome, self.reconcileSuccess_next job found last]
        simp [answered, dispatched, Event.reconciled?]

end AlarmStateCoordinator

/-- The outcomes that leave their queue in a turn are those the turn reports. -/
theorem Refines.outcomes_reported {pipeline : Pipeline} {lanes : Lanes}
    (refines : Refines pipeline lanes) {action : Action} {turn : Pipeline × Sent × List Event}
    (taken : pipeline.Turn action turn) :
    pipeline.jobOutcomes = turn.2.2.filterMap Event.reconciled? ++ turn.1.jobOutcomes := by
  have worked : ∀ {popped : Pipeline} (result : Except String Worked),
      popped.jobOutcomes = pipeline.jobOutcomes → pipeline.jobOutcomes =
        (popped.work result).2.2.filterMap Event.reconciled? ++
          (popped.work result).1.jobOutcomes := by
    intro popped result same
    cases result with
    | error message => exact same.symm
    | ok worked => simp [Pipeline.work, List.filterMap_map, Function.comp_def, Event.reconciled?, same]
  cases taken with
  | input running =>
      rw [refines.jobPort_eq]
      obtain ⟨ended, none⟩ := pipeline.coordinator.handleMessage_reconciled _ _
      rw [Pipeline.coordinate_ok _ ended, none]
      rfl
  | @jobOutcome now outcome rest queue running =>
      have reconciles : ∀ (job : Job) ok, outcome = job.outcome ok →
          ({ pipeline with jobOutcomes := rest }.coordinate
            (pipeline.coordinator.reconcileJobOutcome ⟨true⟩ now outcome)).2.2.filterMap
              Event.reconciled? = [outcome] ∧
          ({ pipeline with jobOutcomes := rest }.coordinate
            (pipeline.coordinator.reconcileJobOutcome ⟨true⟩ now outcome)).1.jobOutcomes =
              rest := by
        rintro job ok rfl
        obtain ⟨entry, found⟩ := refines.outcome_busy queue
        rw [refines.desk]
        obtain ⟨ended, -⟩ := lanes.desk.reconcile_concerns found now ok
        rw [Pipeline.coordinate_ok _ ended]
        exact ⟨lanes.desk.reconcile_reconciled found now ok, rfl⟩
      rw [refines.jobPort_eq]
      cases outcome with
      | committed job =>
          obtain ⟨reports, left⟩ := reconciles job true rfl
          rw [reports, left, queue]
          rfl
      | failed job =>
          obtain ⟨reports, left⟩ := reconciles job false rfl
          rw [reports, left, queue]
          rfl
      | wake key =>
          have quiet := pipeline.coordinator.handleAutomatedUpdate_reconciled
            (buildWakeStatus key now)
          have ended : (pipeline.coordinator.reconcileJobOutcome ⟨true⟩ now (.wake key)).failure =
              none := (pipeline.coordinator.handleMessage_reconciled now
                (.automatedUpdate (buildWakeStatus key now))).1
          rw [Pipeline.coordinate_ok _ ended, queue]
          exact congrArg (fun reports => .wake key :: (reports ++ rest)) quiet.symm
  | publishOutcome | snoozeOutcome | job => exact worked _ rfl
  | @snoozeInput clock input rest =>
      cases { pipeline with snoozeInputs := rest }.scheduler.handleSnoozeInput clock input <;> rfl
  | expiry | completion | flush | publish => rfl

namespace Runtime

variable {config : QueueCapacityConfig} {self next : Runtime} {action : RuntimeAction}
  {out : List Event}

/-- The flattened pipeline goes on refining lanes. -/
theorem flatten_described (refines : ∃ lanes, Refines self.flatten lanes)
    (fires : self.step config action = some (next, out)) : ∃ lanes, Refines next.flatten lanes := by
  obtain ⟨lanes, refines⟩ := refines
  obtain ⟨turn, -, turns⟩ | ⟨-, same, -⟩ := flatten_step fires
  · obtain ⟨nextLanes, -, after⟩ := refines.step turns
    exact ⟨nextLanes, after⟩
  · exact ⟨lanes, same ▸ refines⟩

/-- While two tasks wait for each other, a step leaves the handler and takes from the job outcomes
what it reports. -/
theorem CircularWait.frozen (wait : self.CircularWait config)
    (refines : ∃ lanes, Refines self.flatten lanes)
    (fires : self.step config action = some (next, out)) :
    next.tasks.handler = self.tasks.handler ∧
      self.tasks.jobOutcomes = out.filterMap Event.reconciled? ++ next.tasks.jobOutcomes := by
  obtain ⟨channel, waits⟩ := wait.handler
  obtain ⟨lanes, refines⟩ := refines
  obtain ⟨turn, handled, rfl, free, taken, rfl, rfl⟩ | ⟨sender, accepts, rfl, sends, room, rfl, rfl⟩ :=
    step_cases fires
  · refine ⟨taken.handler_eq (waits.turnless fires), ?_⟩
    have whole := refines.outcomes_reported (taken.deliver self.pending)
    simp only [Pipeline.deliver, ← List.append_assoc] at whole
    exact List.append_cancel_right whole
  · refine ⟨rfl, ?_⟩
    cases sender with
    | handler =>
        obtain rfl : channel = accepts := Option.some.inj (waits.1.symm.trans sends)
        exact absurd room (Nat.not_lt.mpr waits.2)
    | coordinator | scheduler | engine => exact (List.append_nil _).symm

/-- A task that waited and still offers what it offered, without a turn in between. -/
structure Held (config : QueueCapacityConfig) (before : Runtime) (later : List RuntimeAction)
    (final : Runtime) (task : Task) (channel : Channel) : Prop where
  blocked : final.Blocked config task channel
  offers : final.pending.of task = before.pending.of task
  turnless : ∀ turn, .turn turn ∈ later → turn.task ≠ task

/-- A task that waited when the circular wait began is held through another step. -/
theorem Held.step {later : List RuntimeAction} {state : Runtime} {task : Task} {channel : Channel}
    (held : Held config self later state task channel) (wait : state.CircularWait config)
    (fires : state.step config action = some (next, out)) :
    Held config self (later ++ [action]) next task channel where
  blocked := held.blocked.step (wait.engaged held.blocked) fires
  offers := (held.blocked.offers fires).trans held.offers
  turnless := by
    intro turn member
    obtain earlier | last := List.mem_append.mp member
    · exact held.turnless turn earlier
    · obtain rfl := List.mem_singleton.mp last
      exact held.blocked.turnless fires

end Runtime

/-- Once the handler and another task wait for each other they do so for ever: every task that
waits goes on offering what it offered and takes no turn, the handler stays as it is, and of the
job outcomes only those already in the queue are still reconciled. -/
theorem circular_wait_lasts {config : QueueCapacityConfig} {hydratedStatuses : FiniteMap Key Status}
    {admits : List Event → Runtime → RuntimeAction → Prop} {actions later : List RuntimeAction}
    {events more : List Event} {self final : Runtime}
    (reached : (Runtime.machine config).Run admits (.start hydratedStatuses) actions events self)
    (wait : self.CircularWait config)
    (run : (Runtime.machine config).Run Machine.Every self later more final) :
    final.CircularWait config ∧
      (∀ task channel, self.Blocked config task channel →
        Runtime.Held config self later final task channel) ∧
      final.tasks.handler = self.tasks.handler ∧
      self.tasks.jobOutcomes = more.filterMap Event.reconciled? ++ final.tasks.jobOutcomes := by
  obtain ⟨_, flattened⟩ := (Runtime.pipelinePart config).run_every reached
  obtain ⟨lanes, refines, -⟩ := Pipeline.ledger flattened
  suffices lasts : final.CircularWait config ∧ (∃ lanes, Refines final.flatten lanes) ∧
      (∀ task channel, self.Blocked config task channel →
        Runtime.Held config self later final task channel) ∧
      final.tasks.handler = self.tasks.handler ∧
      self.tasks.jobOutcomes = more.filterMap Event.reconciled? ++ final.tasks.jobOutcomes from
    ⟨lasts.1, lasts.2.2⟩
  induction run with
  | refl => exact ⟨wait, ⟨lanes, refines⟩, fun _ _ blocked => ⟨blocked, rfl, by simp⟩, rfl, rfl⟩
  | snoc _ _ fires ih =>
      obtain ⟨wait, refines, held, handler, outcomes⟩ := ih
      obtain ⟨kept, reported⟩ := wait.frozen refines fires
      refine ⟨wait.step fires, Runtime.flatten_described refines fires,
        fun task channel blocked => (held task channel blocked).step wait fires,
        kept.trans handler, ?_⟩
      rw [outcomes, reported, List.filterMap_append, List.append_assoc]

end

section

attribute [local instance] asciiPlatform

/-- The only job under way is carried to the engine, published and reconciled. -/
def delivery : List RuntimeAction :=
  carryJob ++ [.turn (.completion 0 true), .turn .flush, .accept .engine, .turn .publishOutcome,
    .accept .handler, .turn (.jobOutcome 0)]

/-- An alarm under way is published and reconciled, and where nothing more happens then, nothing is
under way. -/
theorem bounded_runs_complete_pump :
    ∃ (self final : Runtime) (events more : List Event),
      (Runtime.machine singleSlots).Run Runtime.Prioritized (.start .empty) (raiseAlarm pump)
        events self ∧
      (Runtime.machine singleSlots).Run Runtime.Recovers self delivery more final ∧
      final.tasks.coordinator.confirmedState.contains pump = true ∧
      (final.Stuck singleSlots → final.pending = .none ∧ final.tasks.Vacant) := by
  obtain ⟨self, events, run, check⟩ := Runtime.run_of_check singleSlots Runtime.prioritized
    (raiseAlarm pump)
    (fun self _ => (((Runtime.machine singleSlots).exec Runtime.recovers self delivery).any
      fun reached => reached.1.tasks.coordinator.confirmedState.contains pump &&
        decide (reached.1.flatten.load < 4)) = true) (by decide)
  have sound : ∀ past state action, Runtime.recovers state action = true →
      Runtime.Recovers past state action := fun _ _ _ serves => serves
  obtain ⟨final, more, later, ends⟩ := Machine.run_of_check sound self delivery
    (fun final _ => final.tasks.coordinator.confirmedState.contains pump &&
      decide (final.flatten.load < 4))
    (of_decide_eq_true check)
  obtain ⟨shown, light⟩ := Bool.and_eq_true_iff.mp ends
  obtain ⟨bound, completes⟩ := bounded_runs_complete (by decide) run
  refine ⟨self, final, events, more, run, later, shown, fun stuck => ?_⟩
  obtain ⟨-, heavy⟩ | done := (completes _ _ _ later).2 stuck
  · have narrow : singleSlots.narrowest = 1 := by decide
    have light := of_decide_eq_true light
    omega
  · exact done

/-- A third analog device. -/
def probe : Key := ⟨"PROBE", .analog, by decide⟩

/-- Two alarms that return together fill the outcome channel while a third is in flight and two
more wait for the handler. -/
def alarmSurge : List RuntimeAction :=
  raiseAlarm pump ++ carryJob ++ raiseAlarm beam ++ carryJob ++ raiseAlarm probe ++ carryJob ++
    [.turn (.completion 0 true), .turn (.completion 0 true), .turn .flush, .accept .engine] ++
    raiseAlarm valve ++
    [.turn (.input (.automatedUpdate (magnet.report .alarmed .high)) 0), .turn .publishOutcome,
      .accept .handler]

/-- The third alarm is published as well, its result is never taken, and the coordinator goes on
offering the handler the job of the last one. -/
theorem circular_wait_lasts_surge :
    ∃ (self final : Runtime) (events more : List Event),
      (Runtime.machine singleSlots).Run Runtime.Prioritized (.start .empty) alarmSurge events self ∧
      (Runtime.machine singleSlots).Run Machine.Every self
        [.turn (.completion 0 true), .turn .flush, .accept .engine] more final ∧
      final.tasks.publishOutcomes.length = 1 ∧
      final.Blocked singleSlots .coordinator .job ∧
      final.pending.of .coordinator = self.pending.of .coordinator := by
  obtain ⟨self, events, run, check⟩ := Runtime.run_of_check singleSlots Runtime.prioritized
    alarmSurge
    (fun self _ => self.Blocked singleSlots .coordinator .job ∧
      self.Blocked singleSlots .handler .jobOutcome ∧
      (((Runtime.machine singleSlots).exec (fun _ _ => true) self
        [.turn (.completion 0 true), .turn .flush, .accept .engine]).any
          fun reached => reached.1.tasks.publishOutcomes.length = 1) = true) (by decide)
  obtain ⟨dispatch, report, goesOn⟩ := of_decide_eq_true check
  obtain ⟨final, more, later, held⟩ := Machine.run_of_check (fun _ _ _ _ => trivial) self _
    (fun (final : Runtime) _ => final.tasks.publishOutcomes.length = 1) goesOn
  obtain ⟨-, kept, -⟩ := circular_wait_lasts run (.jobs dispatch report) later
  have offered := kept .coordinator .job dispatch
  exact ⟨self, final, events, more, run, later, of_decide_eq_true held, offered.blocked,
    offered.offers⟩

end

end AcornAlarms
