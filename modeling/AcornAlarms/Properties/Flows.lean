import AcornAlarms.Lanes.Progress
import AcornAlarms.Properties.Progress
import AcornAlarms.Properties.Scheduler
import AcornAlarms.Runtime.Metered

/-!
# Counted turns

What a turn counts is what it takes from one stage of the pipeline and hands to the next. The
balance of a turn adds up over a run.
-/

namespace AcornAlarms

open Library

/-- The counter an outcome of a job belongs to, among the calls of the workflow handler. -/
def MetricsCall.outcome? : MetricsCall → Option Counter
  | .jobCommitted => some .jobsCommitted
  | .jobFailed => some .jobsFailed
  | .snoozeWake => some .snoozeWakes
  | _ => none

/-- The calls of the scheduler count its timers and nothing of the other tasks. -/
theorem Counted.calls {records : List SnoozeRecord} {number left : Nat}
    (counted : Counted records number left) :
    let calls := records.map MetricsCall.snooze
    MetricsCall.count calls .snoozeSets + number =
        MetricsCall.count calls .snoozeCancels + MetricsCall.count calls .snoozeExpirations + left ∧
      (∀ counter, MetricsCall.count calls counter =
        match counter with
        | .snoozeSets => records.count .set
        | .snoozeCancels => records.count .cancel
        | .snoozeInvalidWakes => records.count .invalidWake
        | .snoozeExpirations => records.count .expiration
        | _ => 0) ∧
      calls.filterMap MetricsCall.completed? = [] ∧ calls.filterMap MetricsCall.outcome? = [] := by
  cases counted with
  | none => exact ⟨by simp, fun counter => by cases counter <;> rfl, rfl, rfl⟩
  | set | cancel | invalidWake | expiration =>
      exact ⟨by simp [MetricsCall.counter?, Nat.add_comm], fun counter => by cases counter <;> rfl,
        rfl, rfl⟩

section

variable [Platform]

def JobOutcome.counter : JobOutcome → Counter
  | .committed _ => .jobsCommitted
  | .failed _ => .jobsFailed
  | .wake _ => .snoozeWakes

def SnoozeOutcome.isInvalidWake : SnoozeOutcome → Bool
  | .invalidWake _ => true
  | _ => false

/-- The call for the result of a publish request. -/
def MetricsCall.settled (delivered : Bool) : MetricsCall :=
  if delivered then .jobCommitted else .jobFailed

namespace WorkflowHandler

variable {self : WorkflowHandler}

/-- The number of jobs under way. -/
def tracked (self : WorkflowHandler) : Nat := self.jobs.keys.length

/-- The calls of a turn of the handler, its outcomes and the change of its jobs. -/
structure Counts (handler : WorkflowHandler) (calls : List MetricsCall) (worked : Worked) :
    Prop where
  jobs : MetricsCall.count calls .jobsDispatched + handler.tracked =
    MetricsCall.count calls .jobsCommitted + MetricsCall.count calls .jobsFailed +
      worked.handler.tracked
  outcomes : calls.filterMap MetricsCall.outcome? =
    (worked.sends.filterMap WorkflowSend.outcome?).map JobOutcome.counter

/-- A new job of a key without one. -/
theorem handleNewJob_counts {job : Job} (absent : self.jobs.get? job.key = none) :
    ∃ worked, self.handleNewJob .alive job = .ok worked ∧
      self.handleNewJobCalls .alive job = [.jobDispatched] ∧
      self.Counts [.jobDispatched] worked := by
  refine ⟨_, handleNewJob_eq rfl job, ?_, ?_, rfl⟩
  · simp [handleNewJobCalls, advanceWorkflowCalls, addWork, TrackedJob.from, workflowOrder,
      dispatchEffect, snooze, lookupJob, WorkflowPorts.alive, bind, Except.bind, pure, Except.pure]
  · let added := (self.addWork job.key job).jobs.insert job.key ⟨job, 1⟩
    have present : (added.get? job.key).isSome := by simp [added]
    have rest : (added.erase job.key).keys.length = self.jobs.keys.length := by
      apply FiniteMap.length_keys_congr
      intro key
      by_cases same : key = job.key
      · simp [same, absent]
      · simp [added, addWork, FiniteMap.get?_erase, FiniteMap.get?_insert, same]
    have more : added.keys.length = self.jobs.keys.length + 1 := by
      rw [← FiniteMap.length_keys_erase present, rest]
    simp [tracked, added, more, MetricsCall.counter?, Nat.add_comm]

/-- A command of a tracked job that was accepted. -/
theorem accepted_counts {key : Key} {job : Job} (found : self.jobs.get? key = some ⟨job, 1⟩) :
    ∃ worked, self.handleSnoozeResult .alive (.accepted key) = .ok worked ∧
      self.handleSnoozeResultCalls .alive (.accepted key) = [] ∧ self.Counts [] worked := by
  refine ⟨_, advanceWorkflow_publish rfl found, ?_, ?_, rfl⟩
  · simp [handleSnoozeResultCalls, advanceWorkflowCalls, found, workflowOrder, dispatchEffect,
      publish, lookupJob, WorkflowPorts.alive, bind, Except.bind, pure, Except.pure]
  · have same : (self.jobs.insert key ⟨job, 2⟩).keys.length = self.jobs.keys.length := by
      apply FiniteMap.length_keys_congr
      intro other
      by_cases here : other = key
      · simp [here, found]
      · simp [FiniteMap.get?_insert, here]
    simp [tracked, same]

/-- A job that ends leaves the handler. -/
theorem tracked_erase {key : Key} (present : (self.jobs.get? key).isSome) :
    self.tracked = tracked ⟨self.jobs.erase key⟩ + 1 :=
  (FiniteMap.length_keys_erase present).symm

/-- A command of a tracked job that was rejected. -/
theorem rejected_counts {key : Key} {work : TrackedJob} (found : self.jobs.get? key = some work) :
    ∃ worked, self.handleSnoozeResult .alive (.invalidWake key) = .ok worked ∧
      self.Counts [.jobFailed] worked := by
  refine ⟨_, sendFailed_eq rfl found, ?_, rfl⟩
  have less := tracked_erase (Option.isSome_of_mem found)
  simp [less, MetricsCall.counter?, Nat.add_comm]

/-- The results of a batch that names each tracked job at most once: every one ends a job. -/
theorem dispatchPublishResults_counts {batch : List PublishResult}
    (distinct : (batch.map SymmetricalResult.intoInner).Nodup)
    (tracks : ∀ result ∈ batch, (self.jobs.get? result.intoInner).isSome) :
    ∃ worked, self.dispatchPublishResults .alive batch = .ok worked ∧
      self.dispatchPublishResultsCalls batch = batch.map (fun result => .settled result.isOk) ∧
      self.Counts (batch.map fun result => .settled result.isOk) worked := by
  induction batch generalizing self with
  | nil => exact ⟨⟨self, [], []⟩, rfl, rfl, by simp, rfl⟩
  | cons result rest ih =>
      have present := tracks result List.mem_cons_self
      obtain ⟨work, found⟩ := Option.isSome_iff_exists.mp present
      rw [List.map_cons, List.nodup_cons] at distinct
      obtain ⟨worked, dispatched, called, ⟨jobs, outcomes⟩⟩ :=
        @ih ⟨self.jobs.erase result.intoInner⟩ distinct.2 (by
          intro later member
          have other : later.intoInner ≠ result.intoInner := by
            intro same
            exact distinct.1 (same ▸ List.mem_map_of_mem member)
          rw [FiniteMap.get?_erase_of_ne _ other]
          exact tracks later (List.mem_cons_of_mem _ member))
      refine ⟨⟨worked.handler, .outcome (work.job.outcome result.isOk) :: worked.sends,
        worked.overran⟩, ?_, ?_, ?_, ?_⟩
      · have alive : WorkflowPorts.alive.coordinator = true := rfl
        simp [dispatchPublishResults, dispatchPublishResult_eq alive found, dispatched, bind,
          Except.bind, pure, Except.pure]
      · have removed : self.removeWork result.intoInner =
            .ok (work.job, ⟨self.jobs.erase result.intoInner⟩) := by
          simp [removeWork, found]
        simp only [dispatchPublishResultsCalls, dispatchPublishResultCalls, removed, called,
          List.map_cons, MetricsCall.settled]
        cases result.isOk <;> rfl
      · have less := tracked_erase present
        cases verdict : result.isOk <;>
          simp only [List.map_cons, MetricsCall.count_cons, verdict, MetricsCall.settled,
            MetricsCall.counter?] at jobs ⊢ <;>
          simp <;> omega
      · have one : (MetricsCall.settled result.isOk).outcome? =
            some (work.job.outcome result.isOk).counter := by
          cases result.isOk <;> rfl
        rw [List.map_cons, List.filterMap_cons_some one, outcomes]
        rfl

/-- The results of one publish outcome. -/
theorem handlePublishOutcome_counts {outcome : PublishOutcome}
    (distinct : (outcome.results.map SymmetricalResult.intoInner).Nodup)
    (tracks : ∀ result ∈ outcome.results, (self.jobs.get? result.intoInner).isSome) :
    ∃ worked, self.handlePublishOutcome .alive outcome = .ok worked ∧
      self.handlePublishOutcomeCalls outcome =
        outcome.results.map (fun result => .settled result.isOk) ∧
      self.Counts (outcome.results.map fun result => .settled result.isOk) worked := by
  obtain ⟨worked, dispatched, called, counts⟩ := dispatchPublishResults_counts distinct tracks
  cases outcome with
  | batch batch => exact ⟨worked, dispatched, called, counts⟩
  | single single =>
      have alive : WorkflowPorts.alive.coordinator = true := rfl
      obtain ⟨work, found⟩ := Option.isSome_iff_exists.mp (tracks single List.mem_cons_self)
      refine ⟨worked, ?_, ?_, counts⟩
      · rw [← dispatched]
        simp [handlePublishOutcome, PublishOutcome.results, dispatchPublishResults,
          dispatchPublishResult_eq alive found, bind, Except.bind, pure, Except.pure]
      · rw [← called]
        simp [handlePublishOutcomeCalls, PublishOutcome.results, dispatchPublishResultsCalls,
          removeWork, found]

/-- The calls for some results, by their verdict. -/
theorem count_settled (results : List PublishResult) (counter : Counter) :
    MetricsCall.count (results.map fun result => .settled result.isOk) counter =
      match counter with
      | .jobsCommitted => results.countP fun result => result.isOk
      | .jobsFailed => results.countP fun result => !result.isOk
      | _ => 0 := by
  induction results with
  | nil => cases counter <;> rfl
  | cons result rest ih =>
      rw [List.map_cons, MetricsCall.count_cons, ih]
      cases counter <;> simp only [List.countP_cons] <;> cases result.isOk <;> rfl

theorem completed_settled (results : List PublishResult) :
    (results.map fun result => MetricsCall.settled result.isOk).filterMap
      MetricsCall.completed? = [] := by
  rw [List.filterMap_map, List.filterMap_eq_nil_iff]
  intro result _
  rw [Function.comp_apply]
  cases result.isOk <;> rfl

end WorkflowHandler

namespace SnoozeScheduler

/-- A command counts as rejected if it is answered so, and never as an expiry. -/
theorem records_rejected (self : SnoozeScheduler) (clock : Clock) (input : SnoozeInput) :
    (self.records clock input).count .invalidWake =
        [answer clock input].countP SnoozeOutcome.isInvalidWake ∧
      (self.records clock input).count .expiration = 0 := by
  obtain ⟨key, wake⟩ := input
  unfold records answer accepts Snooze.from
  cases wake with
  | none =>
      simp only [Option.all_none, if_true]
      split <;> exact ⟨rfl, rfl⟩
  | some wake =>
      cases converted : timestampSecsToInstant clock wake with
      | none => simp [converted, SnoozeOutcome.isInvalidWake]
      | some instant =>
          simp only [Option.all_some, converted, Option.isSome_some, if_true]
          split <;> exact ⟨rfl, rfl⟩

end SnoozeScheduler

namespace Pipeline

/-- What calls count between two states of the pipeline: the jobs the handler took and ended, the
timers that began and ended, the expiries it was told of, and the attempts that returned with what
they led to. -/
structure Balanced (before : Pipeline) (calls : List MetricsCall) (after : Pipeline) : Prop where
  jobs : MetricsCall.count calls .jobsDispatched + before.handler.tracked =
    MetricsCall.count calls .jobsCommitted + MetricsCall.count calls .jobsFailed +
      after.handler.tracked
  timers : MetricsCall.count calls .snoozeSets + before.scheduler.timers =
    MetricsCall.count calls .snoozeCancels + MetricsCall.count calls .snoozeExpirations +
      after.scheduler.timers
  expired : MetricsCall.count calls .snoozeExpirations +
      before.snoozeOutcomes.countP SnoozeOutcome.isExpired =
    MetricsCall.count calls .snoozeWakes + after.snoozeOutcomes.countP SnoozeOutcome.isExpired
  delivered : (calls.filterMap MetricsCall.completed?).length +
      before.results.countP (fun result => result.isOk) =
    MetricsCall.count calls .publishFailures + MetricsCall.count calls .jobsCommitted +
      after.results.countP fun result => result.isOk
  undelivered : MetricsCall.count calls .publishFailures +
      MetricsCall.count calls .snoozeInvalidWakes +
      before.results.countP (fun result => !result.isOk) +
      before.snoozeOutcomes.countP SnoozeOutcome.isInvalidWake =
    MetricsCall.count calls .publishRetries + MetricsCall.count calls .jobsFailed +
      after.results.countP (fun result => !result.isOk) +
      after.snoozeOutcomes.countP SnoozeOutcome.isInvalidWake

variable {before middle after : Pipeline} {calls more : List MetricsCall}

/-- Nothing is counted while nothing that is counted moves. -/
theorem Balanced.still (handler : after.handler.tracked = before.handler.tracked)
    (scheduler : after.scheduler.timers = before.scheduler.timers)
    (replies : after.snoozeOutcomes = before.snoozeOutcomes)
    (results : after.results.Perm before.results) : before.Balanced [] after where
  jobs := by simp [handler]
  timers := by simp [scheduler]
  expired := by simp [replies]
  delivered := by simp [results.countP_eq]
  undelivered := by simp [results.countP_eq, replies]

/-- The balances of two stretches add up. -/
theorem Balanced.trans (first : before.Balanced calls middle)
    (second : middle.Balanced more after) : before.Balanced (calls ++ more) after := by
  obtain ⟨jobs, timers, expired, delivered, undelivered⟩ := first
  obtain ⟨nextJobs, nextTimers, nextExpired, nextDelivered, nextUndelivered⟩ := second
  constructor <;>
    simp only [MetricsCall.count_append, List.filterMap_append, List.length_append] <;> omega

/-- A turn counts what it moves, and its job outcomes in the order it sends them. -/
structure Tallied (before : Pipeline) (calls : List MetricsCall)
    (turn : Pipeline × Sent × List Event) : Prop where
  balanced : before.Balanced calls (turn.1.deliver turn.2.1)
  outcomes : calls.filterMap MetricsCall.outcome? =
    (turn.2.1.work.filterMap WorkflowSend.outcome?).map JobOutcome.counter

variable {lanes : Lanes}

/-- The handler takes a job. -/
theorem tallied_job (refines : Refines before lanes) {job : Job} {rest : List Job}
    (queue : before.jobs = job :: rest) :
    before.Tallied (before.handler.handleNewJobCalls before.workflowPorts job)
      ({ before with jobs := rest }.work
        (before.handler.handleNewJob before.workflowPorts job)) := by
  obtain ⟨arrived, -⟩ := refines.job_arrived queue
  have absent : before.handler.jobs.get? job.key = none := by
    rw [(refines.occupies job.key).tracked, arrived]
    rfl
  obtain ⟨worked, handled, called, counts⟩ := WorkflowHandler.handleNewJob_counts absent
  rw [refines.workflowPorts_eq, handled, called]
  refine ⟨⟨counts.jobs, ?_, ?_, ?_, ?_⟩, counts.outcomes⟩ <;>
    simp [Pipeline.work, Pipeline.results, MetricsCall.counter?, MetricsCall.completed?]

/-- The handler takes an answer of the scheduler or the notice of an elapsed timer. -/
theorem tallied_snoozeOutcome (refines : Refines before lanes) {outcome : SnoozeOutcome}
    {rest : List SnoozeOutcome} (queue : before.snoozeOutcomes = outcome :: rest) :
    before.Tallied (before.handler.handleSnoozeResultCalls before.workflowPorts outcome)
      ({ before with snoozeOutcomes := rest }.work
        (before.handler.handleSnoozeResult before.workflowPorts outcome)) := by
  rw [refines.workflowPorts_eq]
  cases outcome with
  | accepted key =>
      obtain ⟨job, arrived, -, owned⟩ := refines.reply_underway queue
        (show replyFor key (.accepted key) = some true by simp [replyFor])
      have found : before.handler.jobs.get? key = some ⟨job, 1⟩ := by
        rw [(refines.occupies key).tracked, arrived]
        rfl
      obtain ⟨worked, handled, called, counts⟩ := WorkflowHandler.accepted_counts found
      rw [handled, called]
      refine ⟨⟨counts.jobs, ?_, ?_, ?_, ?_⟩, counts.outcomes⟩ <;>
        simp [Pipeline.work, Pipeline.results, queue, SnoozeOutcome.isExpired,
          SnoozeOutcome.isInvalidWake]
  | invalidWake key =>
      obtain ⟨job, arrived, -, owned⟩ := refines.reply_underway queue
        (show replyFor key (.invalidWake key) = some false by simp [replyFor])
      have found : before.handler.jobs.get? key = some ⟨job, 1⟩ := by
        rw [(refines.occupies key).tracked, arrived]
        rfl
      obtain ⟨worked, handled, counts⟩ := WorkflowHandler.rejected_counts found
      rw [handled]
      refine ⟨⟨counts.jobs, ?_, ?_, ?_, ?_⟩, counts.outcomes⟩ <;>
        simp [WorkflowHandler.handleSnoozeResultCalls, Pipeline.work, Pipeline.results, queue,
          List.countP_cons, SnoozeOutcome.isExpired, SnoozeOutcome.isInvalidWake,
          MetricsCall.counter?, MetricsCall.completed?]
      omega
  | expired key =>
      have handled : before.handler.handleSnoozeResult .alive (.expired key) =
          .ok ⟨before.handler, [.outcome (.wake key)], []⟩ := rfl
      rw [handled]
      refine ⟨⟨?_, ?_, ?_, ?_, ?_⟩, rfl⟩ <;>
        simp [WorkflowHandler.handleSnoozeResultCalls, Pipeline.work, Pipeline.results, queue,
          List.countP_cons, SnoozeOutcome.isExpired, SnoozeOutcome.isInvalidWake,
          MetricsCall.counter?, MetricsCall.completed?, Nat.add_comm]

/-- The handler takes the results of a publish outcome. -/
theorem tallied_publishOutcome (refines : Refines before lanes) {outcome : PublishOutcome}
    {rest : List PublishOutcome} (queue : before.publishOutcomes = outcome :: rest) :
    before.Tallied (before.handler.handlePublishOutcomeCalls outcome)
      ({ before with publishOutcomes := rest }.work
        (before.handler.handlePublishOutcome before.workflowPorts outcome)) := by
  obtain ⟨worked, handled, called, counts⟩ := WorkflowHandler.handlePublishOutcome_counts
    (refines.results_distinct queue) fun result inside => refines.results_tracked queue inside
  rw [refines.workflowPorts_eq, handled, called]
  refine ⟨⟨counts.jobs, ?_, ?_, ?_, ?_⟩, counts.outcomes⟩ <;>
    simp only [WorkflowHandler.count_settled, WorkflowHandler.completed_settled] <;>
    simp [Pipeline.work, Pipeline.results, queue, Nat.add_assoc]

/-- The scheduler acts on a command. -/
theorem tallied_snoozeInput (refines : Refines before lanes) (clock : Clock) (input : SnoozeInput)
    (rest : List SnoozeInput) :
    before.Tallied ((before.scheduler.records clock input).map .snooze)
      ({ before with snoozeInputs := rest }.schedule input
        (before.scheduler.handleSnoozeInput clock input)) := by
  obtain ⟨next, handled, -, -⟩ := SnoozeScheduler.handleSnoozeInput_eq refines.coherent clock input
  obtain ⟨timers, counts, completed, outcomes⟩ :=
    (SnoozeScheduler.handleSnoozeInput_counted handled).calls
  obtain ⟨rejected, unexpired⟩ := before.scheduler.records_rejected clock input
  have silent : SnoozeOutcome.isExpired (SnoozeScheduler.answer clock input) = false := by
    unfold SnoozeScheduler.answer
    split <;> rfl
  rw [handled]
  refine ⟨⟨?_, timers, ?_, ?_, ?_⟩, outcomes⟩
  · simp [counts, Pipeline.schedule]
  · simp [counts, Pipeline.schedule, unexpired, silent]
  · simp [counts, Pipeline.schedule, Pipeline.results, completed]
  · simp only [counts, rejected]
    simp [Pipeline.schedule, Pipeline.results]
    omega

/-- A timer elapses. -/
theorem tallied_expiry (refines : Refines before lanes) {clock : Clock} {slot : Nat}
    {scheduler : SnoozeScheduler} {key : Key}
    (expires : before.scheduler.expire clock slot = some (scheduler, key)) :
    before.Tallied [.snooze .expiration]
      ({ before with scheduler }, .byScheduler [.expired key], [.expired key]) := by
  obtain ⟨timers, -, -, -⟩ := (SnoozeScheduler.expire_counted refines.coherent expires).calls
  refine ⟨⟨rfl, timers, ?_, ?_, ?_⟩, rfl⟩ <;>
    simp [Pipeline.results, MetricsCall.counter?, MetricsCall.completed?, SnoozeOutcome.isExpired,
      SnoozeOutcome.isInvalidWake, Nat.add_comm]

/-- An attempt returns: it is counted with the retry or the result it leads to. -/
theorem tallied_completion {index : Nat} {delivered : Bool} {attempt : PublishAttempt}
    {engine : PublishEngine} {outcomes : List PublishOutcome}
    (returns : before.engine.complete index delivered = some (attempt, engine, outcomes))
    (latency : Nat) (events : List Event) :
    before.Tallied (before.engine.completionCalls index delivered latency)
      ({ before with engine }, .byEngine outcomes, events) := by
  cases found : before.engine.inFlight[index]? with
  | none => simp [PublishEngine.complete, found] at returns
  | some value =>
      rw [PublishEngine.complete_of found] at returns
      obtain ⟨rfl, reported⟩ := Prod.mk.inj (Option.some.inj returns)
      have calls : before.engine.completionCalls index delivered latency =
          if delivered then [.publishCompletion .success latency]
          else if value.attemptCount < maxDeliveryAttempts then
            [.publishCompletion .failure latency, .publishRetry]
          else [.publishCompletion .failure latency] := by
        rw [PublishEngine.completionCalls, found]
      rw [calls]
      by_cases again : delivered = false ∧ value.attemptCount < maxDeliveryAttempts
      · obtain ⟨rfl, fewer⟩ := again
        rw [if_pos ⟨rfl, fewer⟩] at reported
        obtain ⟨rfl, rfl⟩ := Prod.mk.inj reported
        rw [if_neg Bool.false_ne_true, if_pos fewer]
        refine ⟨⟨?_, ?_, ?_, ?_, ?_⟩, rfl⟩ <;>
          simp [Pipeline.results, MetricsCall.counter?, MetricsCall.completed?]
      · rw [if_neg again] at reported
        obtain ⟨-, placed⟩ := PublishEngine.handleCompletedWork_results reported.symm
        -- The new result stands among those the handler has not taken.
        have counted : ∀ verdict : PublishResult → Bool,
            (outcomes.flatMap PublishOutcome.results ++ engine.completedBatch).countP verdict =
              before.engine.completedBatch.countP verdict +
                [.of delivered value.detailsRef.key].countP verdict := by
          intro verdict
          obtain last | first := placed
          · rw [last, List.countP_append]
          · rw [first, ← List.singleton_append, List.countP_append, Nat.add_comm]
        have succeeded := counted fun result => result.isOk
        have failed := counted fun result => !result.isOk
        rw [List.countP_append, List.countP_singleton, SymmetricalResult.isOk_of] at succeeded failed
        cases delivered with
        | true =>
            rw [if_pos rfl]
            refine ⟨⟨?_, ?_, ?_, ?_, ?_⟩, rfl⟩ <;>
              simp [Pipeline.results, MetricsCall.counter?, MetricsCall.completed?]
            · simp at succeeded
              omega
            · simp at failed
              omega
        | false =>
            have spent : ¬ value.attemptCount < maxDeliveryAttempts :=
              fun fewer => again ⟨rfl, fewer⟩
            rw [if_neg Bool.false_ne_true, if_neg spent]
            refine ⟨⟨?_, ?_, ?_, ?_, ?_⟩, rfl⟩ <;>
              simp [Pipeline.results, MetricsCall.counter?, MetricsCall.completed?]
            · simp at succeeded
              omega
            · simp at failed
              omega

/-- Results that move from the batch to a message are counted where they are. -/
theorem tallied_flush {engine : PublishEngine} {outcomes : List PublishOutcome}
    (ticks : before.engine.tick = some (engine, outcomes)) :
    before.Tallied [] ({ before with engine }, .byEngine outcomes, []) := by
  simp only [PublishEngine.tick, Option.ite_none_left_eq_some,
    PublishEngine.flushCompletedBatch, Option.some.injEq, Prod.mk.injEq] at ticks
  obtain ⟨-, rfl, rfl⟩ := ticks
  refine ⟨.still ?_ ?_ ?_ (.of_eq ?_), rfl⟩ <;> simp [Pipeline.results, PublishOutcome.results]

/-- A turn that moves nothing that is counted. -/
theorem tallied_still {turn : Pipeline × Sent × List Event}
    (handler : turn.1.handler = before.handler) (scheduler : turn.1.scheduler = before.scheduler)
    (replies : turn.1.snoozeOutcomes = before.snoozeOutcomes)
    (results : turn.1.results = before.results) (work : turn.2.1.work = [])
    (expiries : turn.2.1.snoozeOutcomes = []) (outcomes : turn.2.1.publishOutcomes = []) :
    before.Tallied [] turn := by
  refine ⟨.still ?_ ?_ ?_ (.of_eq ?_), by simp [work]⟩
  · simp [deliver, handler]
  · simp [deliver, scheduler]
  · simp [deliver, replies, expiries]
  · rw [← results]
    simp [deliver, Pipeline.results, outcomes]

/-- Every turn counts what it moves. -/
theorem Turn.tallied {action : Action} {turn : Pipeline × Sent × List Event}
    (taken : before.Turn action turn) (refines : Refines before lanes) (latency : Nat) :
    before.Tallied (before.calls latency action) turn := by
  have coordinates : ∀ (popped : Pipeline) (handled : Handled), popped.handler = before.handler →
      popped.scheduler = before.scheduler → popped.snoozeOutcomes = before.snoozeOutcomes →
      popped.results = before.results → before.Tallied [] (popped.coordinate handled) := by
    intro popped handled handler scheduler replies results
    unfold coordinate
    split <;> exact tallied_still handler scheduler replies results rfl rfl rfl
  cases taken with
  | input running => exact coordinates _ _ rfl rfl rfl rfl
  | jobOutcome queue running => exact coordinates _ _ rfl rfl rfl rfl
  | publishOutcome queue running =>
      simpa only [calls, queue] using tallied_publishOutcome refines queue
  | snoozeOutcome queue running =>
      simpa only [calls, queue] using tallied_snoozeOutcome refines queue
  | job queue running => simpa only [calls, queue] using tallied_job refines queue
  | @snoozeInput clock input rest queue running =>
      obtain ⟨next, handled, -, -⟩ :=
        SnoozeScheduler.handleSnoozeInput_eq refines.coherent clock input
      simpa only [calls, queue, handled] using tallied_snoozeInput refines clock input rest
  | expiry running expires => exact tallied_expiry refines expires
  | completion returns => exact tallied_completion returns latency _
  | flush ticks => exact tallied_flush ticks
  | publish queue => exact tallied_still rfl rfl rfl rfl rfl rfl rfl

end Pipeline

end

end AcornAlarms
