import AcornAlarms.Lanes.Potential
import AcornAlarms.Lanes.Wakes

/-!
# Progress of the pipeline

What the channels hold besides jobs, weighed by the turns it still causes: results on
their way to the handler, timers, expiries and wake-ups. Together with the work left on
the lanes it is a rank that every turn lowers while publishes succeed, no input arrives
and no automated job that is the latest intent of its key is rejected by the scheduler.
-/

namespace AcornAlarms

open Library

variable [Platform]

def SnoozeOutcome.isExpired : SnoozeOutcome → Bool
  | .expired _ => true
  | _ => false

def JobOutcome.isWake : JobOutcome → Bool
  | .wake _ => true
  | _ => false

/-- A turn in which no input arrives and no publish attempt fails. -/
def Action.healthy : Action → Bool
  | .input _ _ => false
  | .completion _ delivered => delivered
  | _ => true

namespace Pipeline

/-- What the tasks and channels hold besides jobs. -/
def backlog (self : Pipeline) : Nat :=
  2 * self.engine.completedBatch.length + self.publishOutcomes.length +
    13 * self.scheduler.registry.keys.length +
    12 * self.snoozeOutcomes.countP SnoozeOutcome.isExpired +
    11 * self.jobOutcomes.countP JobOutcome.isWake

/-- The scheduler rejects the command of an automated job that is the latest intent of its
key. -/
def strands (self : Pipeline) : Action → Bool
  | .snoozeInput clock =>
      self.snoozeInputs.head?.any fun input =>
        !SnoozeScheduler.accepts clock input &&
          (self.handler.jobs.get? input.key).any fun tracked =>
            !tracked.job.userInitiated &&
              (self.coordinator.speculativeState.get? input.key).any fun (_, id) =>
                id = tracked.job.id
  | _ => false

/-- Nothing is under way: every channel is empty, the engine makes no attempt and holds no result
back, the handler tracks no job and no key has speculative state. Timers may be set. -/
structure Vacant (pipeline : Pipeline) : Prop where
  jobs : pipeline.jobs = []
  jobOutcomes : pipeline.jobOutcomes = []
  snoozeInputs : pipeline.snoozeInputs = []
  snoozeOutcomes : pipeline.snoozeOutcomes = []
  publishes : pipeline.publishes = []
  publishOutcomes : pipeline.publishOutcomes = []
  inFlight : pipeline.engine.inFlight = []
  completedBatch : pipeline.engine.completedBatch = []
  tracked : ∀ key, pipeline.handler.jobs.get? key = none
  speculativeState : ∀ key, pipeline.coordinator.speculativeState.get? key = none

variable {self : Pipeline}

theorem coordinate_backlog (handled : Handled) :
    ((self.coordinate handled).1.deliver (self.coordinate handled).2.1).backlog = self.backlog := by
  unfold coordinate
  split <;> simp [backlog]

/-- The end of a coordinator turn leaves the queue it takes outcomes from. -/
theorem coordinate_queue (handled : Handled) :
    ((self.coordinate handled).1.deliver (self.coordinate handled).2.1).jobOutcomes =
      self.jobOutcomes := by
  unfold coordinate
  split <;> simp

theorem work_backlog {result : Except String Worked} (wakeless : WorkflowHandler.Wakeless result) :
    ((self.work result).1.deliver (self.work result).2.1).backlog = self.backlog := by
  cases result with
  | error message => simp [work, backlog, deliver, Sent.none]
  | ok worked =>
      have none : (worked.sends.filterMap WorkflowSend.outcome?).countP JobOutcome.isWake = 0 := by
        rw [List.countP_eq_zero]
        intro outcome member wake
        obtain ⟨message, inside, same⟩ := List.mem_filterMap.mp member
        cases message with
        | outcome sent =>
            obtain rfl := Option.some.inj same
            cases sent with
            | wake key => exact wakeless worked rfl key inside
            | committed _ | failed _ => cases wake
        | publish _ | snooze _ => cases same
      simp [work, backlog, List.countP_append, none]

/-- A handler turn leaves the queues it takes from. -/
theorem work_queues (result : Except String Worked) :
    ((self.work result).1.deliver (self.work result).2.1).jobs = self.jobs ∧
      ((self.work result).1.deliver (self.work result).2.1).snoozeOutcomes =
        self.snoozeOutcomes := by
  cases result with
  | error message => simp [work]
  | ok worked => simp [work]

/-- A handler turn is mute. -/
theorem work_mute (result : Except String Worked) :
    ∀ event ∈ (self.work result).2.2, event.Mute := by
  intro event member
  cases result with
  | error message =>
      obtain rfl := List.mem_singleton.mp member
      trivial
  | ok worked =>
      obtain ⟨key, _, rfl⟩ := List.mem_map.mp member
      trivial

end Pipeline

namespace Refines

variable {pipeline next : Pipeline} {lanes nextLanes : Lanes} {out past : List Event}
  {hydratedStatuses : FiniteMap Key Status}

/-- A job that left the job queue changed its lane. -/
theorem left_jobs (refines : Refines pipeline lanes) (after : Refines next nextLanes)
    {job : Job} {rest : List Job} (queue : pipeline.jobs = job :: rest)
    (left : next.jobs = rest) : nextLanes.stage job.key ≠ lanes.stage job.key := by
  intro same
  have kept := (after.occupies job.key).jobs
  rw [same, ← (refines.occupies job.key).jobs] at kept
  simp [Pipeline.jobsOf, queue, left] at kept

/-- An answer that left the snooze-outcome queue changed its lane. -/
theorem left_replies (refines : Refines pipeline lanes) (after : Refines next nextLanes)
    {outcome : SnoozeOutcome} {rest : List SnoozeOutcome} {key : Key} {accepted : Bool}
    (queue : pipeline.snoozeOutcomes = outcome :: rest) (left : next.snoozeOutcomes = rest)
    (reply : replyFor key outcome = some accepted) :
    nextLanes.stage key ≠ lanes.stage key := by
  intro same
  have kept := (after.occupies key).replies
  rw [same, ← (refines.occupies key).replies] at kept
  simp [Pipeline.repliesOf, queue, left, reply] at kept

/-- A request that left the publish queue changed its lane. -/
theorem left_requests (refines : Refines pipeline lanes) (after : Refines next nextLanes)
    {request : Publish} {rest : List Publish} (queue : pipeline.publishes = request :: rest)
    (left : next.publishes = rest) :
    nextLanes.stage request.detailsRef.key ≠ lanes.stage request.detailsRef.key := by
  intro same
  have kept := (after.occupies request.detailsRef.key).requests
  rw [same, ← (refines.occupies request.detailsRef.key).requests] at kept
  simp [Pipeline.requestsOf, queue, left] at kept

/-- An outcome that left the job-outcome queue was reconciled. -/
theorem left_outcomes (refines : Refines pipeline lanes) (after : Refines next nextLanes)
    (step : lanes.Step out nextLanes) {job : Job} {ok : Bool} {rest : List JobOutcome}
    (queue : pipeline.jobOutcomes = job.outcome ok :: rest) (left : next.jobOutcomes = rest) :
    .failed job ∈ out ∨ .committed job ∈ out := by
  obtain ⟨arrived, only⟩ := refines.outcome_arrived queue
  refine step.unsettles arrived fun same => ?_
  have kept := (after.occupies job.key).outcomes
  rw [same, arrived, Pipeline.outcomesOf, left, only] at kept
  cases kept

/-- The handler takes a job. -/
theorem job_lowers (refines : Refines pipeline lanes) (after : Refines next nextLanes)
    (step : lanes.Step out nextLanes) (fires : pipeline.step .job = some (next, out)) :
    next.backlog + nextLanes.work < pipeline.backlog + lanes.work := by
  obtain ⟨turn, taken, rfl, rfl⟩ := Pipeline.turn_of_step fires
  cases taken with
  | @job job rest queue running =>
      have changed := refines.left_jobs after queue (Pipeline.work_queues _).1
      have wakeless :
          WorkflowHandler.Wakeless (pipeline.handler.handleNewJob pipeline.workflowPorts job) :=
        WorkflowHandler.handleNewJob_wakeless job
      have kept := ({ pipeline with jobs := rest } : Pipeline).work_backlog wakeless
      exact Nat.add_lt_add_of_le_of_lt kept.le (step.work_lt_of_mute (Pipeline.work_mute _) changed)

/-- The handler takes a snooze outcome. -/
theorem snoozeOutcome_lowers (refines : Refines pipeline lanes) (after : Refines next nextLanes)
    (step : lanes.Step out nextLanes) (fires : pipeline.step .snoozeOutcome = some (next, out)) :
    next.backlog + nextLanes.work < pipeline.backlog + lanes.work := by
  obtain ⟨turn, taken, rfl, rfl⟩ := Pipeline.turn_of_step fires
  cases taken with
  | @snoozeOutcome outcome rest queue running =>
      have mute := ({ pipeline with snoozeOutcomes := rest } : Pipeline).work_mute
        (pipeline.handler.handleSnoozeResult pipeline.workflowPorts outcome)
      have left : ∀ {key accepted}, replyFor key outcome = some accepted →
          nextLanes.work < lanes.work := fun reply =>
        step.work_lt_of_mute mute (refines.left_replies after queue (Pipeline.work_queues _).2 reply)
      cases outcome with
      | accepted key =>
          refine Nat.add_lt_add_of_le_of_lt ?_ (left (if_pos rfl))
          refine (Pipeline.work_backlog (WorkflowHandler.advanceWorkflow_wakeless key)).le.trans ?_
          simp [Pipeline.backlog, queue, SnoozeOutcome.isExpired]
      | invalidWake key =>
          refine Nat.add_lt_add_of_le_of_lt ?_ (left (if_pos rfl))
          refine (Pipeline.work_backlog (WorkflowHandler.sendFailed_wakeless key)).le.trans ?_
          simp [Pipeline.backlog, queue, SnoozeOutcome.isExpired]
      | expired key =>
          -- The expiry becomes a wake-up, which weighs less.
          refine Nat.add_lt_add_of_lt_of_le ?_ (step.work_le_of_mute mute)
          simp only [WorkflowHandler.handleSnoozeResult, WorkflowHandler.sendOutcome,
            refines.workflowPorts_eq, WorkflowPorts.alive, if_true, Pipeline.work,
            Pipeline.deliver_outcome, Pipeline.backlog, queue, List.countP_append, List.countP_cons,
            List.countP_nil, SnoozeOutcome.isExpired, JobOutcome.isWake]
          omega

/-- The handler takes a publish outcome. -/
theorem publishOutcome_lowers (step : lanes.Step out nextLanes)
    (fires : pipeline.step .publishOutcome = some (next, out)) :
    next.backlog + nextLanes.work < pipeline.backlog + lanes.work := by
  obtain ⟨turn, taken, rfl, rfl⟩ := Pipeline.turn_of_step fires
  cases taken with
  | @publishOutcome outcome rest queue running =>
      refine Nat.add_lt_add_of_lt_of_le ?_ (step.work_le_of_mute (Pipeline.work_mute _))
      rw [Pipeline.work_backlog (WorkflowHandler.handlePublishOutcome_wakeless outcome)]
      simp only [Pipeline.backlog, queue, List.length_cons]
      omega

/-- The engine takes a request. -/
theorem publish_lowers (refines : Refines pipeline lanes) (after : Refines next nextLanes)
    (step : lanes.Step out nextLanes) (fires : pipeline.step .publish = some (next, out)) :
    next.backlog + nextLanes.work < pipeline.backlog + lanes.work := by
  obtain ⟨turn, taken, rfl, rfl⟩ := Pipeline.turn_of_step fires
  cases taken with
  | @publish request rest queue =>
      rw [Pipeline.deliver_none] at after ⊢
      have less := step.work_lt_of_mute (by simp) (refines.left_requests after queue rfl)
      exact Nat.add_lt_add_left less _

/-- The engine flushes its batch. -/
theorem flush_lowers (step : lanes.Step out nextLanes)
    (fires : pipeline.step .flush = some (next, out)) :
    next.backlog + nextLanes.work < pipeline.backlog + lanes.work := by
  obtain ⟨turn, taken, rfl, rfl⟩ := Pipeline.turn_of_step fires
  cases taken with
  | flush ticks =>
      simp only [PublishEngine.tick, PublishEngine.flushCompletedBatch,
        Option.ite_none_left_eq_some, Option.some.injEq, Prod.mk.injEq] at ticks
      obtain ⟨held, rfl, rfl⟩ := ticks
      refine Nat.add_lt_add_of_lt_of_le ?_ (step.work_le_of_mute (by simp))
      have some : 0 < pipeline.engine.completedBatch.length :=
        List.length_pos_iff.mpr fun empty => held (by simp [empty])
      simp only [Pipeline.deliver_byEngine, Pipeline.backlog, List.length_append,
        List.length_singleton, List.length_nil]
      omega

/-- A publish attempt succeeds: its result weighs less than the turn it took. -/
theorem completion_lowers (step : lanes.Step out nextLanes) {index : Nat}
    (fires : pipeline.step (.completion index true) = some (next, out)) :
    next.backlog + nextLanes.work < pipeline.backlog + lanes.work := by
  simp only [Pipeline.step, Pipeline.handle, Option.map_map, Option.map_eq_some_iff,
    Prod.exists, Function.comp_apply, Pipeline.deliver_byEngine, Prod.mk.injEq] at fires
  obtain ⟨attempt, engine, outcomes, returns, rfl, rfl⟩ := fires
  have paid := step.publishes (List.mem_singleton_self _)
  have reported : 2 * engine.completedBatch.length + outcomes.length ≤
      2 * pipeline.engine.completedBatch.length + 2 := by
    obtain ⟨front, back, _, ⟨failed, _⟩ | ⟨_, handled⟩⟩ := PublishEngine.complete_cases returns
    · cases failed
    · rcases ({ pipeline.engine with inFlight := front ++ back } :
        PublishEngine).handleCompletedWork_cases (.of true attempt) with single | batched | flushed
      · rw [single] at handled
        obtain ⟨rfl, rfl⟩ := Prod.mk.inj handled
        simp
      · rw [batched] at handled
        obtain ⟨rfl, rfl⟩ := Prod.mk.inj handled
        simp
        omega
      · rw [flushed] at handled
        obtain ⟨rfl, rfl⟩ := Prod.mk.inj handled
        simp
  simp only [Pipeline.backlog, List.length_append]
  omega

/-- A timer elapses: its expiry weighs less. -/
theorem expiry_lowers (refines : Refines pipeline lanes) (step : lanes.Step out nextLanes)
    {clock : Clock} {slot : Nat} (fires : pipeline.step (.expiry clock slot) = some (next, out)) :
    next.backlog + nextLanes.work < pipeline.backlog + lanes.work := by
  simp only [Pipeline.step, Pipeline.handle, if_pos refines.schedulerRunning, Option.map_map,
    Option.map_eq_some_iff, Prod.exists, Function.comp_apply, Pipeline.deliver_byScheduler,
    Prod.mk.injEq] at fires
  obtain ⟨scheduler, key, expired, rfl, rfl⟩ := fires
  obtain ⟨held, registry, _⟩ := SnoozeScheduler.expire_eq refines.coherent expired
  have fewer := FiniteMap.length_keys_erase (Option.isSome_iff_exists.mpr ⟨slot, held⟩)
  refine Nat.add_lt_add_of_lt_of_le ?_ (step.work_le_of_mute (by simp [Event.Mute]))
  simp only [Pipeline.backlog, registry, List.countP_append, List.countP_cons, List.countP_nil,
    SnoozeOutcome.isExpired, if_true]
  omega

/-- A rejected command that strands no job is of a job that is followed by another. -/
theorem yields (refines : Refines pipeline lanes) {clock : Clock} {input : SnoozeInput}
    {rest : List SnoozeInput} (queue : pipeline.snoozeInputs = input :: rest)
    (rejected : SnoozeScheduler.accepts clock input = false)
    (unstranded : pipeline.strands (.snoozeInput clock) = false) : lanes.Yields input.key := by
  have occupies := refines.occupies input.key
  have content : input :: rest.filter (fun other => other.key = input.key) =
      (lanes.stage input.key).commands := by
    rw [← occupies.commands]
    simp [Pipeline.commandsOf, queue]
  obtain ⟨job, stage, _, _⟩ := Stage.commands_cons content
  have tracked := occupies.tracked
  rw [stage] at tracked
  intro other status id under latest same
  rw [stage] at under
  obtain rfl := Option.some.inj under
  rw [← refines.desk] at latest
  simpa [Pipeline.strands, queue, rejected, tracked, Stage.tracked, latest, same] using unstranded

/-- The scheduler takes a command and strands no job. -/
theorem snoozeInput_lowers (refines : Refines pipeline lanes) (step : lanes.Step out nextLanes)
    {clock : Clock} (unstranded : pipeline.strands (.snoozeInput clock) = false)
    (fires : pipeline.step (.snoozeInput clock) = some (next, out)) :
    next.backlog + nextLanes.work < pipeline.backlog + lanes.work := by
  cases queue : pipeline.snoozeInputs with
  | nil => simp [Pipeline.step, Pipeline.handle, queue] at fires
  | cons input rest =>
      obtain ⟨scheduler, answers, _⟩ :=
        SnoozeScheduler.handleSnoozeInput_eq refines.coherent clock input
      have registry := SnoozeScheduler.handleSnoozeInput_registry answers
      simp only [Pipeline.step, Pipeline.handle, queue, if_pos refines.schedulerRunning, answers,
        Pipeline.schedule, SnoozeScheduler.answer_eq_accepted, Pipeline.deliver_byScheduler,
        Option.map_some, Option.some.injEq, Prod.mk.injEq] at fires
      obtain ⟨rfl, rfl⟩ := fires
      have silent : (SnoozeScheduler.answer clock input).isExpired = false := by
        unfold SnoozeScheduler.answer
        split <;> rfl
      have lasting : SnoozeScheduler.accepts clock input = true ∨ lanes.Yields input.key := by
        cases accepted : SnoozeScheduler.accepts clock input with
        | true => exact .inl rfl
        | false => exact .inr (refines.yields queue accepted unstranded)
      have paid := step.answers (List.mem_singleton_self _) lasting
      have timers : 13 * scheduler.registry.keys.length ≤
          13 * pipeline.scheduler.registry.keys.length + timerCost input.wake := by
        have within : ∀ key, (scheduler.registry.get? key).isSome →
            key ∈ (if input.wake.isSome then [input.key] else []) ∨
              (pipeline.scheduler.registry.get? key).isSome := by
          intro key set
          rw [registry key] at set
          split at set
          · next here => simp [set, here.1]
          · exact .inr set
        have bound := FiniteMap.length_keys_le _ within
        cases wake : input.wake with
        | none =>
            simp only [wake, Option.isSome_none, Bool.false_eq_true, if_false,
              List.length_nil] at bound
            omega
        | some =>
            simp only [wake, Option.isSome_some, if_true, List.length_singleton] at bound
            simp only [timerCost, Option.isSome_some, if_true]
            omega
      simp only [Pipeline.backlog, List.countP_append, List.countP_cons, List.countP_nil, silent,
        Bool.false_eq_true, if_false]
      omega

/-- A handled wake-up costs at most the job of the status it stands for. -/
theorem wake_work (refines : Refines pipeline lanes)
    (ledger : Ledger hydratedStatuses past lanes.desk lanes.underway) {popped : Pipeline}
    {now : Int} {key : Key}
    (step : lanes.Step (popped.coordinate (pipeline.coordinator.reconcileJobOutcome pipeline.jobPort
      now (.wake key))).2.2 nextLanes) : nextLanes.work ≤ lanes.work + 10 := by
  rw [refines.jobPort_eq, refines.desk, AlarmStateCoordinator.reconcileJobOutcome,
    AlarmStateCoordinator.dispatchAutomatedWake,
    AlarmStateCoordinator.handleAutomatedUpdate_eq] at step
  split at step
  · have ended : ((lanes.desk.recorded (Key.from (buildWakeStatus key now))
        (buildWakeStatus key now) none).after [.woke key]).failure = none := rfl
    rw [Pipeline.coordinate_ok _ ended] at step
    exact step.records ledger (List.mem_cons_of_mem _ List.mem_cons_self) rfl
  · have mute : ∀ event ∈ (popped.coordinate ((Handled.done lanes.desk []).after [.woke key])).2.2,
        event.Mute := by simp [Handled.after, Handled.done, Pipeline.coordinate, Event.Mute]
    exact (step.work_le_of_mute mute).trans (Nat.le_add_right _ _)

/-- The coordinator takes a job outcome. -/
theorem jobOutcome_lowers (refines : Refines pipeline lanes) (after : Refines next nextLanes)
    (ledger : Ledger hydratedStatuses past lanes.desk lanes.underway)
    (step : lanes.Step out nextLanes) {now : Int}
    (fires : pipeline.step (.jobOutcome now) = some (next, out)) :
    next.backlog + nextLanes.work < pipeline.backlog + lanes.work := by
  obtain ⟨turn, taken, rfl, rfl⟩ := Pipeline.turn_of_step fires
  cases taken with
  | @jobOutcome _ outcome rest queue running =>
      have backlog := ({ pipeline with jobOutcomes := rest } : Pipeline).coordinate_backlog
        (pipeline.coordinator.reconcileJobOutcome pipeline.jobPort now outcome)
      have settled : ∀ (job : Job) (ok : Bool), outcome = job.outcome ok →
          nextLanes.work < lanes.work := by
        rintro job ok rfl
        exact step.reconciles ledger
          (refines.left_outcomes after step queue (Pipeline.coordinate_queue _))
      cases outcome with
      | committed job =>
          refine Nat.add_lt_add_of_le_of_lt (backlog.le.trans ?_) (settled job true rfl)
          simp [Pipeline.backlog, queue, JobOutcome.isWake]
      | failed job =>
          refine Nat.add_lt_add_of_le_of_lt (backlog.le.trans ?_) (settled job false rfl)
          simp [Pipeline.backlog, queue, JobOutcome.isWake]
      | wake key =>
          have waking : nextLanes.work ≤ lanes.work + 10 := refines.wake_work ledger step
          rw [backlog]
          simp only [Pipeline.backlog, queue, List.countP_cons, JobOutcome.isWake, if_true]
          omega

/-- Every healthy turn that strands no job lowers the rank. -/
theorem lowers (refines : Refines pipeline lanes) (after : Refines next nextLanes)
    (ledger : Ledger hydratedStatuses past lanes.desk lanes.underway)
    (step : lanes.Step out nextLanes) {action : Action} (healthy : action.healthy = true)
    (unstranded : pipeline.strands action = false)
    (fires : pipeline.step action = some (next, out)) :
    next.backlog + nextLanes.work < pipeline.backlog + lanes.work := by
  cases action with
  | input message now => cases healthy
  | jobOutcome now => exact refines.jobOutcome_lowers after ledger step fires
  | publishOutcome => exact publishOutcome_lowers step fires
  | snoozeOutcome => exact refines.snoozeOutcome_lowers after step fires
  | job => exact refines.job_lowers after step fires
  | snoozeInput clock => exact refines.snoozeInput_lowers step unstranded fires
  | expiry clock slot => exact refines.expiry_lowers step fires
  | completion index delivered =>
      obtain rfl : delivered = true := healthy
      exact completion_lowers step fires
  | flush => exact flush_lowers step fires
  | publish => exact refines.publish_lowers after step fires

/-- A key is idle where every queue is empty and the engine holds nothing. -/
theorem stage_idle (refines : Refines pipeline lanes) (jobs : pipeline.jobs = [])
    (jobOutcomes : pipeline.jobOutcomes = []) (snoozeInputs : pipeline.snoozeInputs = [])
    (snoozeOutcomes : pipeline.snoozeOutcomes = []) (publishes : pipeline.publishes = [])
    (publishOutcomes : pipeline.publishOutcomes = []) (inFlight : pipeline.engine.inFlight = [])
    (completedBatch : pipeline.engine.completedBatch = []) (key : Key) :
    lanes.stage key = .idle := by
  have occupies := refines.occupies key
  cases stage : lanes.stage key with
  | idle => rfl
  | queued job => simpa [Pipeline.jobsOf, jobs, stage, Stage.jobs] using occupies.jobs
  | snoozing job =>
      simpa [Pipeline.commandsOf, snoozeInputs, stage, Stage.commands] using occupies.commands
  | answered job accepted =>
      simpa [Pipeline.repliesOf, snoozeOutcomes, stage, Stage.replies] using occupies.replies
  | publishing job =>
      simpa [Pipeline.requestsOf, publishes, stage, Stage.requests] using occupies.requests
  | attempting job number =>
      simpa [Pipeline.attemptsOf, inFlight, stage, Stage.attempts] using occupies.attempts
  | delivered job ok =>
      simpa [Pipeline.resultsOf, Pipeline.results, publishOutcomes, completedBatch, stage,
        Stage.results] using occupies.results
  | settled job ok =>
      simpa [Pipeline.outcomesOf, jobOutcomes, stage, Stage.outcomes] using occupies.outcomes

/-- Where no task has a message or a returning attempt to take, nothing is under way. -/
theorem vacant (refines : Refines pipeline lanes)
    (idle : ∀ action, action.healthy = true → (∀ clock slot, action ≠ .expiry clock slot) →
      pipeline.step action = none) : pipeline.Vacant := by
  have stuck : ∀ {action turn}, action.healthy = true →
      (∀ clock slot, action ≠ .expiry clock slot) → ¬ pipeline.Turn action turn := by
    intro action turn healthy other taken
    have still := idle action healthy other
    simp [Pipeline.step, taken.handle_eq] at still
  have jobs : pipeline.jobs = [] := by
    cases queue : pipeline.jobs with
    | nil => rfl
    | cons => exact (stuck rfl (by simp) (.job queue refines.handlerRunning)).elim
  have snoozeOutcomes : pipeline.snoozeOutcomes = [] := by
    cases queue : pipeline.snoozeOutcomes with
    | nil => rfl
    | cons => exact (stuck rfl (by simp) (.snoozeOutcome queue refines.handlerRunning)).elim
  have publishes : pipeline.publishes = [] := by
    cases queue : pipeline.publishes with
    | nil => rfl
    | cons => exact (stuck rfl (by simp) (.publish queue)).elim
  have publishOutcomes : pipeline.publishOutcomes = [] := by
    cases queue : pipeline.publishOutcomes with
    | nil => rfl
    | cons => exact (stuck rfl (by simp) (.publishOutcome queue refines.handlerRunning)).elim
  have jobOutcomes : pipeline.jobOutcomes = [] := by
    cases queue : pipeline.jobOutcomes with
    | nil => rfl
    | cons =>
        have taken := @Pipeline.Turn.jobOutcome _ pipeline 0 _ _ queue refines.coordinatorRunning
        exact (stuck rfl (by simp) taken).elim
  have snoozeInputs : pipeline.snoozeInputs = [] := by
    cases queue : pipeline.snoozeInputs with
    | nil => rfl
    | cons =>
        have taken := @Pipeline.Turn.snoozeInput _ pipeline ⟨0, 0⟩ _ _ queue refines.schedulerRunning
        exact (stuck rfl (by simp) taken).elim
  have inFlight : pipeline.engine.inFlight = [] := by
    have still := idle (.completion 0 true) rfl (by simp)
    cases attempts : pipeline.engine.inFlight with
    | nil => rfl
    | cons => simp [Pipeline.step, Pipeline.handle, PublishEngine.complete, attempts] at still
  have completedBatch : pipeline.engine.completedBatch = [] := by
    have still := idle .flush rfl (by simp)
    cases batch : pipeline.engine.completedBatch with
    | nil => rfl
    | cons => simp [Pipeline.step, Pipeline.handle, PublishEngine.tick, batch] at still
  have stage := fun key => refines.stage_idle jobs jobOutcomes snoozeInputs snoozeOutcomes publishes
    publishOutcomes inFlight completedBatch key
  have tracked : ∀ key, pipeline.handler.jobs.get? key = none := by
    intro key
    have occupies := refines.occupies key
    rw [stage key] at occupies
    exact occupies.tracked
  have speculativeState : ∀ key, pipeline.coordinator.speculativeState.get? key = none := by
    intro key
    have busy := lanes.busy key
    rw [stage key, ← refines.desk] at busy
    simpa [Stage.job?] using busy
  exact {
    jobs, jobOutcomes, snoozeInputs, snoozeOutcomes, publishes, publishOutcomes, inFlight
    completedBatch, tracked, speculativeState }

/-- The same for one key's speculative state. -/
theorem drained (refines : Refines pipeline lanes)
    (idle : ∀ action, action.healthy = true → (∀ clock slot, action ≠ .expiry clock slot) →
      pipeline.step action = none) (key : Key) :
    pipeline.coordinator.speculativeState.get? key = none :=
  (refines.vacant idle).speculativeState key

end Refines

end AcornAlarms
