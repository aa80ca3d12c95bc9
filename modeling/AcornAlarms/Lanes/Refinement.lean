import AcornAlarms.Lanes.Lanes

/-!
# The pipeline refines the lanes

`Refines` reads the lanes off a pipeline: every task runs, the desk is the
coordinator, and each key's channels and tasks hold what its stage says. Every turn
of a task is one `Lanes.Step` with the same events.
-/

namespace AcornAlarms

open Library

variable [Platform]

/-- A pipeline with all tasks running whose contents the lanes describe. -/
structure Refines (pipeline : Pipeline) (lanes : Lanes) : Prop where
  coordinatorRunning : pipeline.coordinatorRunning = true
  handlerRunning : pipeline.handlerRunning = true
  schedulerRunning : pipeline.schedulerRunning = true
  coherent : pipeline.scheduler.Coherent
  desk : pipeline.coordinator = lanes.desk
  occupies : ∀ key, Occupies pipeline key (lanes.stage key)

namespace Pipeline

variable (self : Pipeline)

@[simp] theorem deliver_none : self.deliver .none = self := by
  simp [deliver, Sent.none]

@[simp] theorem deliver_byCoordinator (jobs : List Job) :
    self.deliver (.byCoordinator jobs) = { self with jobs := self.jobs ++ jobs } := by
  simp [deliver, Sent.none, Sent.byCoordinator]

@[simp] theorem deliver_byHandler (work : List WorkflowSend) : self.deliver (.byHandler work) =
    { self with
      jobOutcomes := self.jobOutcomes ++ work.filterMap WorkflowSend.outcome?
      snoozeInputs := self.snoozeInputs ++ work.filterMap WorkflowSend.snooze?
      publishes := self.publishes ++ work.filterMap WorkflowSend.publish? } := by
  simp [deliver, Sent.none, Sent.byHandler]

theorem deliver_outcome (message : JobOutcome) :
    self.deliver (.byHandler [.outcome message]) =
      { self with jobOutcomes := self.jobOutcomes ++ [message] } := by
  simp [deliver_byHandler, WorkflowSend.outcome?, WorkflowSend.snooze?, WorkflowSend.publish?]

theorem deliver_snooze (message : SnoozeInput) :
    self.deliver (.byHandler [.snooze message]) =
      { self with snoozeInputs := self.snoozeInputs ++ [message] } := by
  simp [deliver_byHandler, WorkflowSend.outcome?, WorkflowSend.snooze?, WorkflowSend.publish?]

theorem deliver_publish (message : Publish) :
    self.deliver (.byHandler [.publish message]) =
      { self with publishes := self.publishes ++ [message] } := by
  simp [deliver_byHandler, WorkflowSend.outcome?, WorkflowSend.snooze?, WorkflowSend.publish?]

@[simp] theorem deliver_byScheduler (outcomes : List SnoozeOutcome) :
    self.deliver (.byScheduler outcomes) =
      { self with snoozeOutcomes := self.snoozeOutcomes ++ outcomes } := by
  simp [deliver, Sent.none, Sent.byScheduler]

@[simp] theorem deliver_byEngine (outcomes : List PublishOutcome) :
    self.deliver (.byEngine outcomes) =
      { self with publishOutcomes := self.publishOutcomes ++ outcomes } := by
  simp [deliver, Sent.none, Sent.byEngine]

/-- The end of a coordinator turn that returned `Ok(())`. -/
theorem coordinate_ok {handled : Handled} (ok : handled.failure = none) :
    self.coordinate handled =
      ({ self with coordinator := handled.coordinator }, .byCoordinator handled.jobs,
        handled.events) := by
  simp [coordinate, ok]

end Pipeline

namespace Refines

variable {pipeline : Pipeline} {lanes : Lanes}

theorem jobPort_eq (refines : Refines pipeline lanes) : pipeline.jobPort = ⟨true⟩ := by
  simp [Pipeline.jobPort, refines.handlerRunning]

theorem workflowPorts_eq (refines : Refines pipeline lanes) :
    pipeline.workflowPorts = .alive := by
  simp [Pipeline.workflowPorts, WorkflowPorts.alive, refines.coordinatorRunning,
    refines.schedulerRunning]

/-- All tasks start with nothing on any lane. -/
theorem initial (hydratedStatuses : FiniteMap Key Status) :
    Refines (.start hydratedStatuses) (.start hydratedStatuses) where
  coordinatorRunning := rfl
  handlerRunning := rfl
  schedulerRunning := rfl
  coherent := SnoozeScheduler.new_coherent
  desk := rfl
  occupies := by
    intro key
    refine ⟨rfl, ?_, rfl, rfl, rfl, rfl, rfl, rfl⟩
    exact FiniteMap.get?_empty key

/-- A key without speculative state has no job outstanding. -/
theorem outstanding_nil (refines : Refines pipeline lanes) {key : Key}
    (absent : pipeline.coordinator.speculativeState.get? key = none) :
    pipeline.outstanding key = [] := by
  have same := lanes.busy key
  rw [← refines.desk, absent] at same
  rw [(refines.occupies key).outstanding_eq, Option.toList_eq_nil_iff,
    ← Option.not_isSome_iff_eq_none, ← same]
  simp

/-- A key with nothing outstanding is idle. -/
theorem idle_of_outstanding (refines : Refines pipeline lanes) {key : Key}
    (quiet : pipeline.outstanding key = []) : lanes.stage key = .idle := by
  rw [(refines.occupies key).outstanding_eq, Option.toList_eq_nil_iff] at quiet
  exact Stage.eq_idle_of_job? quiet

/-- The job under way is the one outstanding. -/
theorem mem_outstanding (refines : Refines pipeline lanes) {key : Key} {job : Job} :
    job ∈ pipeline.outstanding key ↔ (lanes.stage key).job? = some job := by
  rw [(refines.occupies key).outstanding_eq, Option.mem_toList]

/-- A wake notice on the job-outcome queue occupies no lane. -/
theorem popWake (refines : Refines pipeline lanes) {key : Key} {rest : List JobOutcome}
    (head : pipeline.jobOutcomes = .wake key :: rest) :
    Refines { pipeline with jobOutcomes := rest } lanes where
  coordinatorRunning := refines.coordinatorRunning
  handlerRunning := refines.handlerRunning
  schedulerRunning := refines.schedulerRunning
  coherent := refines.coherent
  desk := refines.desk
  occupies := by
    intro other
    have before := refines.occupies other
    refine { before with outcomes := ?_ }
    rw [← before.outcomes]
    simp [Pipeline.outcomesOf, head, List.filterMap_cons, outcomeFor]

/-- Refinement is kept when one lane moves and the contents of every other key stay. -/
theorem update (refines : Refines pipeline lanes) {key : Key} {reached : Stage}
    {nextLanes : Lanes} {next : Pipeline}
    (stage : nextLanes.stage = Function.update lanes.stage key reached)
    (desk : next.coordinator = nextLanes.desk)
    (running : next.coordinatorRunning = true ∧ next.handlerRunning = true ∧
      next.schedulerRunning = true)
    (coherent : next.scheduler.Coherent) (here : Occupies next key reached)
    (others : ∀ other stage, other ≠ key → Occupies pipeline other stage →
      Occupies next other stage) : Refines next nextLanes where
  coordinatorRunning := running.1
  handlerRunning := running.2.1
  schedulerRunning := running.2.2
  coherent := coherent
  desk := desk
  occupies := by
    intro other
    rw [stage]
    rcases eq_or_ne other key with rfl | different
    · rw [Function.update_self]
      exact here
    · rw [Function.update_of_ne different]
      exact others other _ different (refines.occupies other)

section

variable {key : Key} {status : Status} {confirmation : Option Confirmation}

/-- A status recorded for an idle key opens its lane with the job of the status. -/
theorem opened (refines : Refines pipeline lanes)
    (decides : lanes.desk.Decides key status confirmation)
    (before : List Event) (quiet : ∀ event ∈ before, event.Quiet lanes.desk)
    (found : lanes.desk.speculativeState.get? key = none) :
    ∃ next, lanes.Step (before ++ (lanes.desk.recorded key status confirmation).events) next ∧
      Refines
        { pipeline with
          coordinator := (lanes.desk.recorded key status confirmation).coordinator
          jobs := pipeline.jobs ++ (lanes.desk.recorded key status confirmation).jobs } next := by
  have idle : lanes.stage key = .idle := by
    apply Stage.eq_idle_of_job?
    have same := lanes.busy key
    simpa [found] using same.symm
  let desk := lanes.desk.record key status confirmation
  obtain ⟨job, opens⟩ : ∃ job, desk.nextJob key = some job := by
    simp [desk, AlarmStateCoordinator.nextJob]
  have named := AlarmStateCoordinator.nextJob_key opens
  let next := lanes.seat key desk (.queued job)
    (by rintro other ⟨⟩; exact named)
    (by simp [desk, Stage.job?])
    (by
      intro other different
      simp [desk, FiniteMap.get?_insert_of_ne _ _ different])
  simp only [AlarmStateCoordinator.recorded, found, Option.isNone_none, if_true]
  rw [show (lanes.desk.record key status confirmation).nextJob key = some job from opens]
  refine ⟨next, .start decides quiet idle opens rfl rfl, ?_⟩
  refine refines.update rfl rfl
    ⟨refines.coordinatorRunning, refines.handlerRunning, refines.schedulerRunning⟩
    refines.coherent ?_ ?_
  · have prior := refines.occupies key
    rw [idle] at prior
    refine { prior with jobs := ?_ }
    have empty := prior.jobs
    simp only [Pipeline.jobsOf, List.filter_append] at empty ⊢
    simp [empty, named, Stage.jobs]
  · intro other stage different prior
    refine { prior with jobs := ?_ }
    have foreign : job.key ≠ other := by
      rw [named]
      exact different.symm
    rw [← prior.jobs]
    simp [Pipeline.jobsOf, foreign]

/-- A status recorded for a busy key waits for the job of the key. -/
theorem displaced (refines : Refines pipeline lanes) {entry}
    (decides : lanes.desk.Decides key status confirmation)
    (before : List Event) (quiet : ∀ event ∈ before, event.Quiet lanes.desk)
    (found : lanes.desk.speculativeState.get? key = some entry) :
    ∃ next, lanes.Step (before ++ (lanes.desk.recorded key status confirmation).events) next ∧
      Refines
        { pipeline with
          coordinator := (lanes.desk.recorded key status confirmation).coordinator
          jobs := pipeline.jobs ++ (lanes.desk.recorded key status confirmation).jobs } next := by
  obtain ⟨job, under⟩ : ∃ job, (lanes.stage key).job? = some job := by
    apply Option.isSome_iff_exists.mp
    rw [← lanes.busy key, found]
    rfl
  let next := lanes.seat key (lanes.desk.record key status confirmation) (lanes.stage key)
    (fun other found => lanes.owned found)
    (by simp [under])
    (by
      intro other different
      simp [FiniteMap.get?_insert_of_ne _ _ different])
  have content : next.stage = lanes.stage := Function.update_eq_self ..
  simp only [AlarmStateCoordinator.recorded, found, Option.isNone_some, Bool.false_eq_true,
    if_false, List.append_nil]
  refine ⟨next, .displace decides quiet under rfl content, ?_⟩
  refine refines.update rfl rfl
    ⟨refines.coordinatorRunning, refines.handlerRunning, refines.schedulerRunning⟩
    refines.coherent ?_ fun _ _ _ prior => { prior with }
  exact { refines.occupies key with }

/-- A status recorded by the desk opens the lane of an idle key and leaves a busy one. -/
theorem record (refines : Refines pipeline lanes)
    (decides : lanes.desk.Decides key status confirmation)
    (before : List Event) (quiet : ∀ event ∈ before, event.Quiet lanes.desk) :
    ∃ next, lanes.Step (before ++ (lanes.desk.recorded key status confirmation).events) next ∧
      Refines
        { pipeline with
          coordinator := (lanes.desk.recorded key status confirmation).coordinator
          jobs := pipeline.jobs ++ (lanes.desk.recorded key status confirmation).jobs } next := by
  cases found : lanes.desk.speculativeState.get? key with
  | none => exact refines.opened decides before quiet found
  | some entry => exact refines.displaced decides before quiet found

end

/-- The job at the head of its queue is the only one of its key and waits to be taken. -/
theorem job_arrived (refines : Refines pipeline lanes) {job : Job} {rest : List Job}
    (queue : pipeline.jobs = job :: rest) :
    lanes.stage job.key = .queued job ∧ rest.filter (fun later => later.key = job.key) = [] := by
  apply Stage.jobs_cons
  rw [← (refines.occupies job.key).jobs]
  simp [Pipeline.jobsOf, queue]

/-- The handler takes a job and sends its snooze command. -/
theorem job (refines : Refines pipeline lanes) {next : Pipeline} {out : List Event}
    (fires : pipeline.step .job = some (next, out)) :
    ∃ nextLanes, lanes.Step out nextLanes ∧ Refines next nextLanes := by
  obtain ⟨turn, taken, rfl, rfl⟩ := Pipeline.turn_of_step fires
  cases taken with
  | @job job rest queue running =>
      have prior := refines.occupies job.key
      obtain ⟨arrived, only⟩ := refines.job_arrived queue
      simp only [refines.workflowPorts_eq,
        WorkflowHandler.handleNewJob_eq (rfl : WorkflowPorts.alive.snooze = true), Pipeline.work,
        Pipeline.deliver_snooze, List.map_nil]
      refine ⟨lanes.travel job.key (.snoozing job) (by rw [arrived]; rfl),
        .travel (by rw [arrived]; exact .receive) rfl rfl, ?_⟩
      rw [arrived] at prior
      refine refines.update rfl refines.desk
        ⟨refines.coordinatorRunning, running, refines.schedulerRunning⟩ refines.coherent
        { prior with jobs := ?_, tracked := ?_, commands := ?_ } ?_
      · exact only
      · simp [WorkflowHandler.addWork, Stage.tracked]
      · have none := prior.commands
        simp only [Pipeline.commandsOf, Stage.commands] at none
        simp [Pipeline.commandsOf, Stage.commands, none]
      · intro other stage different before
        refine { before with jobs := ?_, tracked := ?_, commands := ?_ }
        · rw [← before.jobs]
          simp [Pipeline.jobsOf, queue, different.symm]
        · rw [← before.tracked]
          simp [WorkflowHandler.addWork, FiniteMap.get?_insert_of_ne _ _ different]
        · rw [← before.commands]
          simp [Pipeline.commandsOf, different.symm]

/-- The scheduler takes a command and answers it. -/
theorem snoozeInput (refines : Refines pipeline lanes) {next : Pipeline} {out : List Event}
    {clock : Clock} (fires : pipeline.step (.snoozeInput clock) = some (next, out)) :
    ∃ nextLanes, lanes.Step out nextLanes ∧ Refines next nextLanes := by
  obtain ⟨turn, taken, rfl, rfl⟩ := Pipeline.turn_of_step fires
  cases taken with
  | @snoozeInput _ input rest queue running =>
      have prior := refines.occupies input.key
      obtain ⟨job, arrived, command, only⟩ : ∃ job, lanes.stage input.key = .snoozing job ∧
          input = ⟨job.key, job.status.wake⟩ ∧
          rest.filter (fun later => later.key = input.key) = [] := by
        apply Stage.commands_cons
        rw [← prior.commands]
        simp [Pipeline.commandsOf, queue]
      obtain ⟨scheduler, answers, coherent, -⟩ :=
        SnoozeScheduler.handleSnoozeInput_eq refines.coherent clock input
      simp only [answers, Pipeline.schedule, SnoozeScheduler.answer_eq_accepted,
        Pipeline.deliver_byScheduler]
      let reached := Stage.answered job (SnoozeScheduler.accepts clock input)
      refine ⟨lanes.travel input.key reached (by rw [arrived]; rfl), ?_, ?_⟩
      · refine .travel ?_ rfl rfl
        rw [arrived]
        simp only [reached, command]
        exact .answer
      rw [arrived] at prior
      refine refines.update rfl refines.desk
        ⟨refines.coordinatorRunning, refines.handlerRunning, running⟩ coherent
        { prior with commands := ?_, replies := ?_ } ?_
      · exact only
      · have none := prior.replies
        simp only [Pipeline.repliesOf, Stage.replies] at none
        simp [Pipeline.repliesOf, Stage.replies, none, reached]
      · intro other stage different before
        refine { before with commands := ?_, replies := ?_ }
        · rw [← before.commands]
          simp [Pipeline.commandsOf, queue, different.symm]
        · rw [← before.replies]
          simp [Pipeline.repliesOf, different.symm]

/-- The first answer is to the job of its lane, and no other answer to the lane waits. -/
theorem reply_underway (refines : Refines pipeline lanes) {key : Key} {ok : Bool}
    {outcome : SnoozeOutcome} {rest : List SnoozeOutcome}
    (queue : pipeline.snoozeOutcomes = outcome :: rest) (reply : replyFor key outcome = some ok) :
    ∃ job, lanes.stage key = .answered job ok ∧ rest.filterMap (replyFor key) = [] ∧
      job.key = key := by
  obtain ⟨job, arrived, only⟩ : ∃ job, lanes.stage key = .answered job ok ∧
      rest.filterMap (replyFor key) = [] := by
    apply Stage.replies_cons
    rw [← (refines.occupies key).replies]
    simp [Pipeline.repliesOf, queue, reply]
  exact ⟨job, arrived, only, lanes.owned (by rw [arrived]; rfl)⟩

/-- An accepted command lets the job of its key go on to the engine. -/
theorem replied (refines : Refines pipeline lanes) {key : Key} {rest : List SnoozeOutcome}
    (queue : pipeline.snoozeOutcomes = .accepted key :: rest) :
    let (next, sent, out) := { pipeline with snoozeOutcomes := rest }.work
      (pipeline.handler.handleSnoozeResult .alive (.accepted key))
    ∃ nextLanes, lanes.Step out nextLanes ∧ Refines (next.deliver sent) nextLanes := by
  have prior := refines.occupies key
  obtain ⟨job, arrived, only, named⟩ := refines.reply_underway queue (if_pos rfl)
  rw [arrived] at prior
  simp only [WorkflowHandler.handleSnoozeResult,
    WorkflowHandler.advanceWorkflow_publish (rfl : WorkflowPorts.alive.publish = true)
      prior.tracked,
    Pipeline.work, Pipeline.deliver_publish, List.map_nil]
  refine ⟨lanes.travel key (.publishing job) (by rw [arrived]; rfl),
    .travel (by rw [arrived]; exact .advance) rfl rfl, ?_⟩
  refine refines.update rfl refines.desk
    ⟨refines.coordinatorRunning, refines.handlerRunning, refines.schedulerRunning⟩
    refines.coherent { prior with tracked := ?_, replies := ?_, requests := ?_ } ?_
  · simp [Stage.tracked]
  · exact only
  · have none := prior.requests
    simp only [Pipeline.requestsOf, Stage.requests] at none
    simp [Pipeline.requestsOf, Stage.requests, none, Job.publishDetails, named]
  · intro other stage different before
    refine { before with tracked := ?_, replies := ?_, requests := ?_ }
    · rw [← before.tracked]
      simp [FiniteMap.get?_insert_of_ne _ _ different]
    · rw [← before.replies]
      simp [Pipeline.repliesOf, queue, replyFor, different.symm]
    · rw [← before.requests]
      simp [Pipeline.requestsOf, Job.publishDetails, named, different.symm]

/-- A rejected command fails the job of its key. -/
theorem rejected (refines : Refines pipeline lanes) {key : Key} {rest : List SnoozeOutcome}
    (queue : pipeline.snoozeOutcomes = .invalidWake key :: rest) :
    let (next, sent, out) := { pipeline with snoozeOutcomes := rest }.work
      (pipeline.handler.handleSnoozeResult .alive (.invalidWake key))
    ∃ nextLanes, lanes.Step out nextLanes ∧ Refines (next.deliver sent) nextLanes := by
  have prior := refines.occupies key
  obtain ⟨job, arrived, only, named⟩ := refines.reply_underway queue (if_pos rfl)
  rw [arrived] at prior
  simp only [WorkflowHandler.handleSnoozeResult,
    WorkflowHandler.sendFailed_eq (rfl : WorkflowPorts.alive.coordinator = true) prior.tracked,
    Pipeline.work, Pipeline.deliver_outcome, List.map_nil]
  refine ⟨lanes.travel key (.settled job false) (by rw [arrived]; rfl),
    .travel (by rw [arrived]; exact .reject) rfl rfl, ?_⟩
  refine refines.update rfl refines.desk
    ⟨refines.coordinatorRunning, refines.handlerRunning, refines.schedulerRunning⟩
    refines.coherent { prior with tracked := ?_, replies := ?_, outcomes := ?_ } ?_
  · simp [Stage.tracked]
  · exact only
  · have none := prior.outcomes
    simp only [Pipeline.outcomesOf, Stage.outcomes] at none
    simp [Pipeline.outcomesOf, Stage.outcomes, none, outcomeFor, named]
  · intro other stage different before
    refine { before with tracked := ?_, replies := ?_, outcomes := ?_ }
    · rw [← before.tracked]
      simp [FiniteMap.get?_erase_of_ne _ different]
    · rw [← before.replies]
      simp [Pipeline.repliesOf, queue, replyFor, different.symm]
    · rw [← before.outcomes]
      simp [Pipeline.outcomesOf, outcomeFor, named, different.symm]

/-- The handler takes an answer to a snooze command, or the notice of an expiry. -/
theorem snoozeOutcome (refines : Refines pipeline lanes) {next : Pipeline} {out : List Event}
    (fires : pipeline.step .snoozeOutcome = some (next, out)) :
    ∃ nextLanes, lanes.Step out nextLanes ∧ Refines next nextLanes := by
  obtain ⟨turn, taken, rfl, rfl⟩ := Pipeline.turn_of_step fires
  cases taken with
  | @snoozeOutcome outcome rest queue running =>
      rw [refines.workflowPorts_eq]
      cases outcome with
      | accepted key => exact refines.replied queue
      | invalidWake key => exact refines.rejected queue
      | expired key =>
          simp only [WorkflowHandler.handleSnoozeResult, WorkflowHandler.sendOutcome,
            WorkflowPorts.alive, if_true, Pipeline.work, Pipeline.deliver_outcome, List.map_nil]
          refine ⟨lanes, .still (by simp), ?_⟩
          refine ⟨refines.coordinatorRunning, running, refines.schedulerRunning, refines.coherent,
            refines.desk, ?_⟩
          intro other
          have before := refines.occupies other
          refine { before with replies := ?_, outcomes := ?_ }
          · rw [← before.replies]
            simp [Pipeline.repliesOf, queue, List.filterMap_cons, replyFor]
          · rw [← before.outcomes]
            simp [Pipeline.outcomesOf, outcomeFor, List.filterMap_cons]

/-- An expiry notice enters the snooze-outcome queue. -/
theorem expiry (refines : Refines pipeline lanes) {next : Pipeline} {out : List Event}
    {clock : Clock} {slot : Nat} (fires : pipeline.step (.expiry clock slot) = some (next, out)) :
    ∃ nextLanes, lanes.Step out nextLanes ∧ Refines next nextLanes := by
  obtain ⟨turn, taken, rfl, rfl⟩ := Pipeline.turn_of_step fires
  cases taken with
  | expiry running expires =>
      obtain ⟨-, -, coherent⟩ := SnoozeScheduler.expire_eq refines.coherent expires
      rw [Pipeline.deliver_byScheduler]
      refine ⟨lanes, .still (by simp [Event.Quiet]), ?_⟩
      refine ⟨refines.coordinatorRunning, refines.handlerRunning, running, coherent,
        refines.desk, ?_⟩
      intro other
      have before := refines.occupies other
      refine { before with replies := ?_ }
      rw [← before.replies]
      simp [Pipeline.repliesOf, replyFor, List.filterMap_cons]

/-- The engine takes a request and attempts it. -/
theorem publish (refines : Refines pipeline lanes) {next : Pipeline} {out : List Event}
    (fires : pipeline.step .publish = some (next, out)) :
    ∃ nextLanes, lanes.Step out nextLanes ∧ Refines next nextLanes := by
  obtain ⟨turn, taken, rfl, rfl⟩ := Pipeline.turn_of_step fires
  cases taken with
  | @publish request rest queue =>
      let key := request.detailsRef.key
      have prior := refines.occupies key
      obtain ⟨job, arrived, rfl, only⟩ : ∃ job, lanes.stage key = .publishing job ∧
          request = job.publishRequest ∧
          rest.filter (fun later => later.detailsRef.key = key) = [] := by
        apply Stage.requests_cons
        rw [← prior.requests]
        simp [Pipeline.requestsOf, queue, key]
      rw [Pipeline.deliver_none]
      refine ⟨lanes.travel key (.attempting job 1) (by rw [arrived]; rfl),
        .travel (by rw [arrived]; exact .attempt) rfl rfl, ?_⟩
      rw [arrived] at prior
      refine refines.update rfl refines.desk
        ⟨refines.coordinatorRunning, refines.handlerRunning, refines.schedulerRunning⟩
        refines.coherent { prior with requests := ?_, attempts := ?_ } ?_
      · exact only
      · have none := prior.attempts
        simp only [Pipeline.attemptsOf, Stage.attempts] at none
        simp only [Pipeline.attemptsOf, PublishEngine.receive, List.filter_append, none]
        simp [Stage.attempts, PublishAttempt.new, PublishAttempt.detailsRef, key]
      · intro other stage different before
        have foreign : job.publishDetails.key ≠ other := by
          simpa [key] using different.symm
        refine { before with requests := ?_, attempts := ?_ }
        · rw [← before.requests]
          simp [Pipeline.requestsOf, queue, foreign]
        · rw [← before.attempts]
          simp [Pipeline.attemptsOf, PublishEngine.receive, PublishAttempt.new,
            PublishAttempt.detailsRef, foreign]

/-- The flush tick moves the completed batch into the publish-outcome queue. -/
theorem flush (refines : Refines pipeline lanes) {next : Pipeline} {out : List Event}
    (fires : pipeline.step .flush = some (next, out)) :
    ∃ nextLanes, lanes.Step out nextLanes ∧ Refines next nextLanes := by
  simp only [Pipeline.step, Pipeline.handle, PublishEngine.tick, PublishEngine.flushCompletedBatch,
    Option.map_map, Option.map_eq_some_iff, Prod.exists, Function.comp_apply,
    Option.ite_none_left_eq_some, Option.some.injEq, Pipeline.deliver_byEngine,
    Prod.mk.injEq] at fires
  obtain ⟨engine, outcomes, ⟨-, rfl, rfl⟩, rfl, rfl⟩ := fires
  refine ⟨lanes, .still (by simp), ?_⟩
  refine ⟨refines.coordinatorRunning, refines.handlerRunning, refines.schedulerRunning,
    refines.coherent, refines.desk, ?_⟩
  intro other
  have before := refines.occupies other
  refine { before with results := ?_ }
  rw [← before.results]
  simp [Pipeline.resultsOf, Pipeline.results, PublishOutcome.results]

/-- An attempt in flight is the one of its lane, and the other attempts are of other keys. -/
theorem attempt_underway (refines : Refines pipeline lanes) {attempt : PublishAttempt}
    {front back : List PublishAttempt}
    (whole : pipeline.engine.inFlight = front ++ attempt :: back) :
    ∃ job number, lanes.stage job.key = .attempting job number ∧
      attempt = ⟨job.publishRequest, number⟩ ∧
      front.filter (fun other => other.detailsRef.key = job.key) = [] ∧
      back.filter (fun other => other.detailsRef.key = job.key) = [] := by
  let key := attempt.detailsRef.key
  obtain ⟨job, number, arrived, same, first, last⟩ : ∃ job number,
      lanes.stage key = .attempting job number ∧ attempt = ⟨job.publishRequest, number⟩ ∧
      front.filter (fun other => other.detailsRef.key = key) = [] ∧
      back.filter (fun other => other.detailsRef.key = key) = [] := by
    apply Stage.attempts_split
    rw [← (refines.occupies key).attempts]
    simp [Pipeline.attemptsOf, whole, key]
  have named : job.key = key := lanes.owned (by rw [arrived]; rfl)
  exact ⟨job, number, by rw [named, arrived], same, by rw [named, first], by rw [named, last]⟩

/-- What another key finds among the attempts does not change when an attempt returns. -/
theorem attempts_foreign {attempt : PublishAttempt} {front back : List PublishAttempt}
    (whole : pipeline.engine.inFlight = front ++ attempt :: back) {other : Key}
    (different : other ≠ attempt.detailsRef.key) :
    (front ++ back).filter (fun attempt => attempt.detailsRef.key = other) =
      pipeline.attemptsOf other := by
  simp [Pipeline.attemptsOf, whole, different.symm]

/-- A new result is of the key of its attempt, on whichever side of the batch it was put. -/
theorem results_placed (other : Key) {key : Key} {delivered : Bool}
    {added batch : List PublishResult} (none : pipeline.resultsOf key = [])
    (placed : added ++ batch = pipeline.engine.completedBatch ++ [.of delivered key] ∨
      added ++ batch = .of delivered key :: pipeline.engine.completedBatch) :
    (pipeline.publishOutcomes.flatMap PublishOutcome.results ++ (added ++ batch)).filterMap
        (resultFor other) =
      if other = key then [delivered] else pipeline.resultsOf other := by
  simp only [Pipeline.resultsOf, Pipeline.results, List.filterMap_append,
    List.append_eq_nil_iff] at none ⊢
  rw [← List.filterMap_append]
  split
  · next same =>
      subst same
      rcases placed with back | front
      · rw [back]
        simp [none, resultFor]
      · rw [front]
        simp [none, resultFor]
  · next different =>
      have apart : key ≠ other := fun same => different same.symm
      rcases placed with back | front
      · rw [back]
        simp [resultFor, apart]
      · rw [front]
        simp [resultFor, apart]

/-- An attempt of a job's request is about the details of the job. -/
theorem detailsRef_publishRequest (job : Job) (number : Nat) :
    PublishAttempt.detailsRef ⟨job.publishRequest, number⟩ = job.publishDetails := by
  simp [PublishAttempt.detailsRef]

/-- A failed attempt is tried again. -/
theorem retried (refines : Refines pipeline lanes) {attempt : PublishAttempt}
    {front back : List PublishAttempt}
    (whole : pipeline.engine.inFlight = front ++ attempt :: back)
    (again : attempt.attemptCount < maxDeliveryAttempts) :
    ∃ nextLanes, lanes.Step [.published attempt.detailsRef.key attempt.detailsRef.status false]
        nextLanes ∧
      Refines
        { pipeline with engine :=
          { pipeline.engine with inFlight := front ++ back ++ [attempt.incrementAttempt] } }
        nextLanes := by
  obtain ⟨job, number, arrived, rfl, first, last⟩ := refines.attempt_underway whole
  have prior := refines.occupies job.key
  rw [arrived] at prior
  refine ⟨lanes.travel _ (.attempting job (number + 1)) (by rw [arrived]; rfl), ?_, ?_⟩
  · refine .travel ?_ rfl rfl
    rw [arrived]
    rw [detailsRef_publishRequest]
    exact .retry again
  · have counted : min (number + 1) 255 = number + 1 := by
      simp only [maxDeliveryAttempts] at again
      omega
    refine refines.update rfl refines.desk
      ⟨refines.coordinatorRunning, refines.handlerRunning, refines.schedulerRunning⟩
      refines.coherent { prior with attempts := ?_ } ?_
    · simp only [Pipeline.attemptsOf, List.filter_append, first, last]
      simp [PublishAttempt.incrementAttempt, PublishAttempt.detailsRef, Job.publishDetails,
        Stage.attempts, counted]
    · intro other stage different before
      refine { before with attempts := ?_ }
      have apart : other ≠ (PublishAttempt.detailsRef ⟨job.publishRequest, number⟩).key := by
        rw [detailsRef_publishRequest]
        exact different
      rw [← before.attempts, ← attempts_foreign whole apart]
      simp [Pipeline.attemptsOf, PublishAttempt.incrementAttempt, PublishAttempt.detailsRef,
        Job.publishDetails, different.symm]

/-- A returned attempt that is not tried again leaves its result for the handler. -/
theorem reported (refines : Refines pipeline lanes) {attempt : PublishAttempt}
    {front back : List PublishAttempt} {delivered : Bool} {engine : PublishEngine}
    {outcomes : List PublishOutcome}
    (whole : pipeline.engine.inFlight = front ++ attempt :: back)
    (spent : delivered = false → maxDeliveryAttempts ≤ attempt.attemptCount)
    (reports : (engine, outcomes) =
      { pipeline.engine with inFlight := front ++ back }.handleCompletedWork
        (.of delivered attempt)) :
    ∃ nextLanes, lanes.Step
        [.published attempt.detailsRef.key attempt.detailsRef.status delivered] nextLanes ∧
      Refines
        { pipeline with
          engine := engine
          publishOutcomes := pipeline.publishOutcomes ++ outcomes } nextLanes := by
  obtain ⟨job, number, arrived, rfl, first, last⟩ := refines.attempt_underway whole
  have prior := refines.occupies job.key
  rw [arrived] at prior
  obtain ⟨kept, placed⟩ := PublishEngine.handleCompletedWork_results reports
  rw [detailsRef_publishRequest] at placed
  refine ⟨lanes.travel _ (.delivered job delivered) (by rw [arrived]; rfl), ?_, ?_⟩
  · refine .travel ?_ rfl rfl
    rw [arrived]
    rw [detailsRef_publishRequest]
    exact .deliver spent
  · refine refines.update rfl refines.desk
      ⟨refines.coordinatorRunning, refines.handlerRunning, refines.schedulerRunning⟩
      refines.coherent { prior with attempts := ?_, results := ?_ } ?_
    · simp only [Pipeline.attemptsOf, kept, List.filter_append, first, last]
      rfl
    · have here := results_placed job.key prior.results placed
      simpa [Pipeline.resultsOf, Pipeline.results, Stage.results] using here
    · intro other stage different before
      have apart : other ≠ (PublishAttempt.detailsRef ⟨job.publishRequest, number⟩).key := by
        rw [detailsRef_publishRequest]
        exact different
      refine { before with attempts := ?_, results := ?_ }
      · rw [← before.attempts, ← attempts_foreign whole apart]
        simp only [Pipeline.attemptsOf, kept]
      · rw [← before.results]
        have there := results_placed other prior.results placed
        simpa [Pipeline.resultsOf, Pipeline.results, different] using there

/-- An attempt returns: it is tried again or its result is kept for the handler. -/
theorem completion (refines : Refines pipeline lanes) {next : Pipeline} {out : List Event}
    {index : Nat} {delivered : Bool}
    (fires : pipeline.step (.completion index delivered) = some (next, out)) :
    ∃ nextLanes, lanes.Step out nextLanes ∧ Refines next nextLanes := by
  simp only [Pipeline.step, Pipeline.handle, Option.map_map, Option.map_eq_some_iff, Prod.exists,
    Function.comp_apply, Pipeline.deliver_byEngine, Prod.mk.injEq] at fires
  obtain ⟨attempt, engine, outcomes, returns, rfl, rfl⟩ := fires
  obtain ⟨front, back, whole, continues⟩ := PublishEngine.complete_cases returns
  rcases continues with ⟨rfl, again, rfl, rfl⟩ | ⟨spent, reports⟩
  · simpa using refines.retried whole again
  · exact refines.reported whole spent reports

/-- A batch with at most one result for each key names no key twice. -/
theorem batch_distinct {batch : List PublishResult}
    (single : ∀ key, (batch.filterMap (resultFor key)).length ≤ 1) :
    (batch.map SymmetricalResult.intoInner).Nodup := by
  induction batch with
  | nil => exact List.nodup_nil
  | cons result rest ih =>
      rw [List.map_cons, List.nodup_cons]
      constructor
      · intro member
        obtain ⟨later, inside, same⟩ := List.mem_map.mp member
        have bound := single result.intoInner
        have found : later.isOk ∈ rest.filterMap (resultFor result.intoInner) :=
          List.mem_filterMap.mpr ⟨later, inside, by simp [resultFor, same]⟩
        have positive := List.length_pos_of_mem found
        simp only [List.filterMap_cons, resultFor, if_true, List.length_cons] at bound positive
        omega
      · apply ih
        intro key
        refine le_trans (List.Sublist.length_le ?_) (single key)
        exact (List.sublist_cons_self result rest).filterMap _

/-- The outcomes sent for a batch, as one key sees them. -/
theorem batch_outcomes {jobs : FiniteMap Key TrackedJob}
    (named : ∀ {key work}, jobs.get? key = some work → work.job.key = key)
    (batch : List PublishResult) (key : Key) :
    ((batch.filterMap fun result => (jobs.get? result.intoInner).map fun work =>
      WorkflowSend.outcome (work.job.outcome result.isOk)).filterMap
        WorkflowSend.outcome?).filterMap (outcomeFor key) =
      (batch.filterMap (resultFor key)).filterMap fun ok =>
        (jobs.get? key).map fun work => (work.job, ok) := by
  simp only [List.filterMap_filterMap]
  apply List.filterMap_congr
  intro result member
  rcases eq_or_ne result.intoInner key with rfl | different
  · cases found : jobs.get? result.intoInner with
    | none => simp [resultFor]
    | some work => simp [resultFor, WorkflowSend.outcome?, named found]
  · cases found : jobs.get? result.intoInner with
    | none => simp [resultFor, different]
    | some work => simp [resultFor, WorkflowSend.outcome?, named found, different]

/-- A batch leads to outcomes only. -/
theorem batch_others {jobs : FiniteMap Key TrackedJob} {α : Type}
    (other : WorkflowSend → Option α) (silent : ∀ outcome, other (.outcome outcome) = none)
    (batch : List PublishResult) :
    (batch.filterMap fun result => (jobs.get? result.intoInner).map fun work =>
      WorkflowSend.outcome (work.job.outcome result.isOk)).filterMap other = [] := by
  rw [List.filterMap_eq_nil_iff]
  intro send member
  obtain ⟨result, _, made⟩ := List.mem_filterMap.mp member
  obtain ⟨work, _, rfl⟩ := Option.map_eq_some_iff.mp made
  exact silent _

/-- Without a result of a key a batch shows nothing to it. -/
theorem batch_unnamed {batch : List PublishResult} {key : Key}
    (unnamed : key ∉ batch.map SymmetricalResult.intoInner) :
    batch.filterMap (resultFor key) = [] := by
  rw [List.filterMap_eq_nil_iff]
  intro result inside
  have different : result.intoInner ≠ key := by
    rintro rfl
    exact unnamed (List.mem_map_of_mem inside)
  simp [resultFor, different]

/-- The handler tracks a job under its own key. -/
theorem tracked_key (refines : Refines pipeline lanes) {key : Key} {work : TrackedJob}
    (found : pipeline.handler.jobs.get? key = some work) : work.job.key = key := by
  rw [(refines.occupies key).tracked] at found
  apply lanes.owned
  cases stage : lanes.stage key <;> simp_all [Stage.tracked, Stage.job?] <;> rw [← found]

/-- The next publish outcome and what is left of the results, as one key sees them. -/
theorem results_split (refines : Refines pipeline lanes) {outcome : PublishOutcome}
    {rest : List PublishOutcome} (queue : pipeline.publishOutcomes = outcome :: rest) (key : Key) :
    outcome.results.filterMap (resultFor key) ++
      (rest.flatMap PublishOutcome.results ++ pipeline.engine.completedBatch).filterMap
        (resultFor key) = (lanes.stage key).results := by
  rw [← (refines.occupies key).results]
  simp [Pipeline.resultsOf, Pipeline.results, queue]

/-- A key that a publish outcome names has its only result there. -/
theorem results_named (refines : Refines pipeline lanes) {outcome : PublishOutcome}
    {rest : List PublishOutcome} (queue : pipeline.publishOutcomes = outcome :: rest) {key : Key}
    (member : key ∈ outcome.results.map SymmetricalResult.intoInner) :
    ∃ job ok, lanes.stage key = .delivered job ok ∧
      outcome.results.filterMap (resultFor key) = [ok] ∧
      (rest.flatMap PublishOutcome.results ++ pipeline.engine.completedBatch).filterMap
        (resultFor key) = [] := by
  obtain ⟨result, inside, rfl⟩ := List.mem_map.mp member
  have found : result.isOk ∈ outcome.results.filterMap (resultFor result.intoInner) :=
    List.mem_filterMap.mpr ⟨result, inside, by simp [resultFor]⟩
  obtain ⟨first, more, same⟩ := List.exists_cons_of_ne_nil (List.ne_nil_of_mem found)
  have whole := refines.results_split queue result.intoInner
  rw [same, List.cons_append] at whole
  obtain ⟨job, arrived, empty⟩ := Stage.results_cons whole
  rw [List.append_eq_nil_iff] at empty
  exact ⟨job, first, arrived, by rw [same, empty.1], empty.2⟩

/-- The results of one outcome are of different keys. -/
theorem results_distinct (refines : Refines pipeline lanes) {outcome : PublishOutcome}
    {rest : List PublishOutcome} (queue : pipeline.publishOutcomes = outcome :: rest) :
    (outcome.results.map SymmetricalResult.intoInner).Nodup := by
  apply batch_distinct
  intro key
  by_cases member : key ∈ outcome.results.map SymmetricalResult.intoInner
  · obtain ⟨_, _, _, single, _⟩ := refines.results_named queue member
    simp [single]
  · simp [batch_unnamed member]

/-- The handler tracks the job of every result. -/
theorem results_tracked (refines : Refines pipeline lanes) {outcome : PublishOutcome}
    {rest : List PublishOutcome} (queue : pipeline.publishOutcomes = outcome :: rest)
    {result : PublishResult} (inside : result ∈ outcome.results) :
    (pipeline.handler.jobs.get? result.intoInner).isSome := by
  obtain ⟨job, ok, arrived, _⟩ := refines.results_named queue (List.mem_map_of_mem inside)
  simp [(refines.occupies _).tracked, arrived, Stage.tracked]

/-- The handler takes the results of a publish outcome: the jobs they name settle. -/
theorem publishOutcome (refines : Refines pipeline lanes) {next : Pipeline} {out : List Event}
    (fires : pipeline.step .publishOutcome = some (next, out)) :
    ∃ nextLanes, lanes.Step out nextLanes ∧ Refines next nextLanes := by
  cases queue : pipeline.publishOutcomes with
  | nil => simp [Pipeline.step, Pipeline.handle, queue] at fires
  | cons outcome rest =>
      let names := outcome.results.map SymmetricalResult.intoInner
      obtain ⟨handler, dispatched, untracked⟩ := WorkflowHandler.handlePublishOutcome_eq
        (rfl : WorkflowPorts.alive.coordinator = true) (refines.results_distinct queue)
        fun result inside => refines.results_tracked queue inside
      simp only [Pipeline.step, Pipeline.handle, queue, refines.handlerRunning, if_true,
        refines.workflowPorts_eq, dispatched, Pipeline.work, Pipeline.deliver_byHandler,
        List.map_nil, Option.map_some, Option.some.injEq, Prod.mk.injEq] at fires
      obtain ⟨rfl, rfl⟩ := fires
      let stage := fun key => if key ∈ names then (lanes.stage key).report else lanes.stage key
      have same : ∀ key, (stage key).job? = (lanes.stage key).job? := by
        intro key
        simp only [stage]
        split <;> simp
      refine ⟨lanes.relabel stage same, .report rfl ?_, ?_⟩
      · intro key
        by_cases member : key ∈ names
        · obtain ⟨job, ok, arrived, _⟩ := refines.results_named queue member
          exact .inr ⟨job, ok, arrived,
            by simp [Lanes.relabel, stage, member, arrived, Stage.report]⟩
        · exact .inl (by simp [Lanes.relabel, stage, member])
      rw [batch_others WorkflowSend.snooze? (fun _ => rfl),
        batch_others WorkflowSend.publish? (fun _ => rfl), List.append_nil, List.append_nil]
      refine ⟨refines.coordinatorRunning, rfl, refines.schedulerRunning, refines.coherent,
        refines.desk, ?_⟩
      intro key
      have prior := refines.occupies key
      have sent := batch_outcomes refines.tracked_key outcome.results key
      have outcomes := prior.outcomes
      simp only [Pipeline.outcomesOf] at outcomes
      by_cases member : key ∈ names
      · obtain ⟨job, ok, arrived, single, left⟩ := refines.results_named queue member
        have reached : (lanes.relabel stage same).stage key = .settled job ok := by
          simp [Lanes.relabel, stage, member, arrived, Stage.report]
        rw [arrived] at prior outcomes
        rw [reached]
        refine
          { prior with
            tracked := ?_
            results := left
            outcomes := ?_ }
        · rw [untracked key, if_pos member]
          rfl
        · have none : pipeline.jobOutcomes.filterMap (outcomeFor key) = [] := outcomes
          simp only [Pipeline.outcomesOf, List.filterMap_append, none, sent, single, prior.tracked]
          rfl
      · have kept : (lanes.relabel stage same).stage key = lanes.stage key := by
          simp [Lanes.relabel, stage, member]
        have unnamed := batch_unnamed member
        have split := refines.results_split queue key
        rw [unnamed] at sent split
        rw [kept]
        refine
          { prior with
            tracked := ?_
            results := split
            outcomes := ?_ }
        · rw [untracked key, if_neg member]
          exact prior.tracked
        · simp only [Pipeline.outcomesOf, List.filterMap_append, sent, outcomes]
          simp

/-- A coordinator turn that returned `Ok(())` and left the coordinator as it was. -/
theorem unchanged (refines : Refines pipeline lanes) :
    Refines { pipeline with coordinator := lanes.desk } lanes := by
  rw [← refines.desk]
  exact refines

/-- The coordinator takes an input. -/
theorem input (refines : Refines pipeline lanes) {next : Pipeline} {out : List Event}
    {message : DomainInput} {now : Int}
    (fires : pipeline.step (.input message now) = some (next, out)) :
    ∃ nextLanes, lanes.Step out nextLanes ∧ Refines next nextLanes := by
  simp only [Pipeline.step, Pipeline.handle, refines.coordinatorRunning, if_true,
    refines.jobPort_eq, refines.desk, Option.map_some, Option.some.injEq] at fires
  cases message with
  | snapshotRequest sender =>
      simp only [AlarmStateCoordinator.handleMessage, AlarmStateCoordinator.handleSnapshot,
        Handled.done, Pipeline.coordinate_ok, Pipeline.deliver_byCoordinator, List.append_nil,
        Prod.mk.injEq] at fires
      obtain ⟨rfl, rfl⟩ := fires
      exact ⟨lanes, .still (by simp [Event.Quiet]), refines.unchanged⟩
  | automatedUpdate status =>
      rw [AlarmStateCoordinator.handleMessage,
        AlarmStateCoordinator.handleAutomatedUpdate_eq] at fires
      split at fires
      · next accepted =>
          rw [pipeline.coordinate_ok (AlarmStateCoordinator.recorded_failure ..)] at fires
          simp only [Pipeline.deliver_byCoordinator, Prod.mk.injEq] at fires
          obtain ⟨rfl, rfl⟩ := fires
          exact refines.record (.automated rfl accepted) [] (by simp)
      · simp only [Handled.done, Pipeline.coordinate_ok, Pipeline.deliver_byCoordinator,
          List.append_nil, Prod.mk.injEq] at fires
        obtain ⟨rfl, rfl⟩ := fires
        exact ⟨lanes, .still (by simp), refines.unchanged⟩
  | userUpdate key action user confirmation =>
      rw [AlarmStateCoordinator.handleMessage, AlarmStateCoordinator.handleUserUpdate_eq] at fires
      split at fires
      · next allowed =>
          rw [pipeline.coordinate_ok (AlarmStateCoordinator.recorded_failure ..)] at fires
          simp only [Pipeline.deliver_byCoordinator, Prod.mk.injEq] at fires
          obtain ⟨rfl, rfl⟩ := fires
          exact refines.record (.user allowed) [] (by simp)
      · simp only [Handled.done, Pipeline.coordinate_ok, Pipeline.deliver_byCoordinator,
          List.append_nil, Prod.mk.injEq] at fires
        obtain ⟨rfl, rfl⟩ := fires
        exact ⟨lanes, .still (by simp [Event.Quiet]), refines.unchanged⟩

/-- The outcome at the head of its queue is the only one of its key and settles the job under
way. -/
theorem outcome_arrived (refines : Refines pipeline lanes) {job : Job} {ok : Bool}
    {rest : List JobOutcome} (head : pipeline.jobOutcomes = job.outcome ok :: rest) :
    lanes.stage job.key = .settled job ok ∧ rest.filterMap (outcomeFor job.key) = [] := by
  apply Stage.outcomes_cons
  rw [← (refines.occupies job.key).outcomes]
  simp [Pipeline.outcomesOf, head]

/-- The key of that outcome is busy. -/
theorem outcome_busy (refines : Refines pipeline lanes) {job : Job} {ok : Bool}
    {rest : List JobOutcome} (head : pipeline.jobOutcomes = job.outcome ok :: rest) :
    ∃ entry, lanes.desk.speculativeState.get? job.key = some entry := by
  refine Option.isSome_iff_exists.mp ?_
  rw [lanes.busy, (refines.outcome_arrived head).1]
  rfl

/-- The outcome of a job leaves its queue, and the next job of the key, if there is one,
enters the job queue. -/
theorem reconciled (refines : Refines pipeline lanes) (job : Job) (ok : Bool)
    {rest : List JobOutcome} (head : pipeline.jobOutcomes = job.outcome ok :: rest)
    (newJob : Option Job) (named : ∀ later, newJob = some later → later.key = job.key)
    (nextLanes : Lanes)
    (stage : nextLanes.stage =
      Function.update lanes.stage job.key (newJob.elim .idle Stage.queued)) :
    Refines
      { pipeline with
        jobOutcomes := rest
        coordinator := nextLanes.desk
        jobs := pipeline.jobs ++ newJob.toList } nextLanes := by
  obtain ⟨arrived, only⟩ := refines.outcome_arrived head
  have prior := refines.occupies job.key
  rw [arrived] at prior
  refine refines.update stage rfl
    ⟨refines.coordinatorRunning, refines.handlerRunning, refines.schedulerRunning⟩
    refines.coherent ?_ ?_
  · have none := prior.jobs
    simp only [Pipeline.jobsOf, Stage.jobs] at none
    cases newJob with
    | none =>
        refine { prior with jobs := ?_, outcomes := only }
        simp [Pipeline.jobsOf, none, Stage.jobs]
    | some later =>
        refine { prior with jobs := ?_, outcomes := only }
        simp [Pipeline.jobsOf, none, Stage.jobs, named later rfl]
  · intro other stage different before
    refine { before with jobs := ?_, outcomes := ?_ }
    · rw [← before.jobs]
      cases newJob with
      | none => simp [Pipeline.jobsOf]
      | some later => simp [Pipeline.jobsOf, named later rfl, different.symm]
    · rw [← before.outcomes]
      simp [Pipeline.outcomesOf, head, different.symm]

/-- The coordinator reconciles a committed job. -/
theorem committed (refines : Refines pipeline lanes) {job : Job} {rest : List JobOutcome}
    (queue : pipeline.jobOutcomes = .committed job :: rest) :
    let turn := { pipeline with jobOutcomes := rest }.coordinate
      (lanes.desk.reconcileSuccess ⟨true⟩ job)
    ∃ nextLanes, lanes.Step turn.2.2 nextLanes ∧ Refines (turn.1.deliver turn.2.1) nextLanes := by
  have head : pipeline.jobOutcomes = job.outcome true :: rest := queue
  obtain ⟨arrived, _⟩ := refines.outcome_arrived head
  obtain ⟨⟨status, id⟩, found⟩ := refines.outcome_busy head
  by_cases latest : id = job.id
  · subst latest
    simp only [AlarmStateCoordinator.reconcileSuccess_last _ job found, Pipeline.coordinate_ok,
      Pipeline.deliver_byCoordinator]
    let nextLanes := lanes.seat job.key
      (((lanes.desk.settle job).clear job.key).confirm job) .idle (by simp [Stage.job?])
      (by simp [Stage.job?])
      (by
        intro other different
        simp [FiniteMap.get?_erase_of_ne _ different])
    refine ⟨nextLanes, .commitLast arrived found rfl rfl, ?_⟩
    exact refines.reconciled job true head none (by simp) nextLanes rfl
  · obtain ⟨newJob, follows⟩ :
        ∃ newJob, (lanes.desk.settle job).nextJob job.key = some newJob := by
      simp [AlarmStateCoordinator.nextJob, found]
    have named := AlarmStateCoordinator.nextJob_key follows
    simp only [AlarmStateCoordinator.reconcileSuccess_next _ job found latest, follows,
      Pipeline.coordinate_ok, Pipeline.deliver_byCoordinator]
    let nextLanes := lanes.seat job.key ((lanes.desk.settle job).confirm job)
      (.queued newJob) (by rintro other ⟨⟩; exact named) (by simp [Stage.job?, found])
      (by simp)
    refine ⟨nextLanes, .commitNext arrived found latest follows rfl rfl, ?_⟩
    exact refines.reconciled job true head (some newJob)
      (by rintro later ⟨⟩; exact named) nextLanes rfl

/-- The coordinator reconciles a failed job. -/
theorem failed (refines : Refines pipeline lanes) {job : Job} {rest : List JobOutcome}
    (queue : pipeline.jobOutcomes = .failed job :: rest) :
    let turn := { pipeline with jobOutcomes := rest }.coordinate
      (lanes.desk.reconcileFailure ⟨true⟩ job)
    ∃ nextLanes, lanes.Step turn.2.2 nextLanes ∧ Refines (turn.1.deliver turn.2.1) nextLanes := by
  have head : pipeline.jobOutcomes = job.outcome false :: rest := queue
  obtain ⟨arrived, _⟩ := refines.outcome_arrived head
  obtain ⟨⟨status, id⟩, found⟩ := refines.outcome_busy head
  rw [AlarmStateCoordinator.reconcileFailure_eq _ job found]
  by_cases rolls : id = job.id ∧ job.userInitiated = true
  · obtain ⟨rfl, user⟩ := rolls
    let desk := (lanes.desk.settle job).convergeToLastConfirmed job.key
    obtain ⟨newJob, follows⟩ : ∃ newJob, desk.nextJob job.key = some newJob := by
      simp [desk, AlarmStateCoordinator.nextJob]
    have named := AlarmStateCoordinator.nextJob_key follows
    simp only [user, and_self, if_true, follows, Option.toList_some, List.map_cons,
      List.map_nil, List.append_assoc, List.singleton_append, Pipeline.coordinate_ok,
      Pipeline.deliver_byCoordinator, desk]
    let nextLanes := lanes.seat job.key desk (.queued newJob)
      (by rintro other ⟨⟩; exact named) (by simp [Stage.job?, desk])
      (by
        intro other different
        simp [desk, FiniteMap.get?_insert_of_ne _ _ different])
    refine ⟨nextLanes, .rollBack arrived found user follows rfl rfl, ?_⟩
    exact refines.reconciled job false head (some newJob)
      (by rintro later ⟨⟩; exact named) nextLanes rfl
  · obtain ⟨newJob, follows⟩ :
        ∃ newJob, (lanes.desk.settle job).nextJob job.key = some newJob := by
      simp [AlarmStateCoordinator.nextJob, found]
    have named := AlarmStateCoordinator.nextJob_key follows
    simp only [rolls, if_false, follows, Option.toList_some, List.map_cons, List.map_nil,
      List.append_assoc, List.singleton_append, Pipeline.coordinate_ok,
      Pipeline.deliver_byCoordinator]
    let nextLanes := lanes.seat job.key (lanes.desk.settle job) (.queued newJob)
      (by rintro other ⟨⟩; exact named) (by simp [Stage.job?, found]) (by simp)
    refine ⟨nextLanes, .redispatch arrived found rolls follows rfl rfl, ?_⟩
    exact refines.reconciled job false head (some newJob)
      (by rintro later ⟨⟩; exact named) nextLanes rfl

/-- The coordinator handles a wake-up. -/
theorem woke (refines : Refines pipeline lanes) {key : Key} {rest : List JobOutcome}
    (queue : pipeline.jobOutcomes = .wake key :: rest) (now : Int) :
    let turn := { pipeline with jobOutcomes := rest }.coordinate
      (lanes.desk.dispatchAutomatedWake ⟨true⟩ key now)
    ∃ nextLanes, lanes.Step turn.2.2 nextLanes ∧ Refines (turn.1.deliver turn.2.1) nextLanes := by
  have popped := refines.popWake queue
  simp only [AlarmStateCoordinator.dispatchAutomatedWake,
    AlarmStateCoordinator.handleAutomatedUpdate_eq]
  split
  · next accepted =>
      have ended : ((lanes.desk.recorded (Key.from (buildWakeStatus key now))
          (buildWakeStatus key now) none).after [.woke key]).failure = none := rfl
      rw [Pipeline.coordinate_ok _ ended, Pipeline.deliver_byCoordinator]
      exact popped.record (.automated rfl accepted) [.woke key] (by simp [Event.Quiet])
  · simp only [Handled.after, Handled.done, Pipeline.coordinate_ok,
      Pipeline.deliver_byCoordinator, List.append_nil]
    exact ⟨lanes, .still (by simp [Event.Quiet]), popped.unchanged⟩

/-- The coordinator takes the outcome of a job, or a wake-up. -/
theorem jobOutcome (refines : Refines pipeline lanes) {next : Pipeline} {out : List Event}
    {now : Int} (fires : pipeline.step (.jobOutcome now) = some (next, out)) :
    ∃ nextLanes, lanes.Step out nextLanes ∧ Refines next nextLanes := by
  obtain ⟨turn, taken, rfl, rfl⟩ := Pipeline.turn_of_step fires
  cases taken with
  | @jobOutcome _ outcome rest queue running =>
      rw [refines.jobPort_eq, refines.desk]
      cases outcome with
      | committed job => exact refines.committed queue
      | failed job => exact refines.failed queue
      | wake key => exact refines.woke queue now

/-- Every turn of a task is a step of the lanes with the same events. -/
theorem step (refines : Refines pipeline lanes) {next : Pipeline} {action : Action}
    {out : List Event} (fires : pipeline.step action = some (next, out)) :
    ∃ nextLanes, lanes.Step out nextLanes ∧ Refines next nextLanes := by
  cases action with
  | input message now => exact refines.input fires
  | jobOutcome now => exact refines.jobOutcome fires
  | publishOutcome => exact refines.publishOutcome fires
  | snoozeOutcome => exact refines.snoozeOutcome fires
  | job => exact refines.job fires
  | snoozeInput clock => exact refines.snoozeInput fires
  | expiry clock slot => exact refines.expiry fires
  | completion index delivered => exact refines.completion fires
  | flush => exact refines.flush fires
  | publish => exact refines.publish fires

end Refines

namespace Refines

variable {admits : List Event → Pipeline → Action → Prop} {pipeline final : Pipeline}
  {lanes : Lanes} {actions : List Action} {events : List Event}

/-- What every step of the lanes keeps of the history and the lanes holds after every
run of the pipeline. -/
theorem history (refines : Refines pipeline lanes)
    (run : Pipeline.machine.Run admits pipeline actions events final)
    (holds : List Event → Lanes → Prop) (initial : holds [] lanes)
    (kept : ∀ {past lanes out next}, holds past lanes → Lanes.Step lanes out next →
      holds (past ++ out) next) :
    ∃ lanes, Refines final lanes ∧ holds events lanes := by
  refine run.history (fun past state => ∃ lanes, Refines state lanes ∧ holds past lanes)
    ⟨lanes, refines, initial⟩ ?_
  rintro past state action next out ⟨lanes, refines, before⟩ _ fires
  obtain ⟨nextLanes, step, after⟩ := refines.step fires
  exact ⟨nextLanes, after, kept before step⟩

/-- A run from a pipeline the lanes describe ends in one. -/
theorem run (refines : Refines pipeline lanes)
    (run : Pipeline.machine.Run admits pipeline actions events final) :
    ∃ lanes, Refines final lanes := by
  refine run.invariant (fun state => ∃ lanes, Refines state lanes) ⟨lanes, refines⟩ ?_
  rintro past state action next out ⟨lanes, refines⟩ _ fires
  obtain ⟨nextLanes, _, after⟩ := refines.step fires
  exact ⟨nextLanes, after⟩

end Refines

end AcornAlarms
