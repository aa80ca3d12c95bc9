import AcornAlarms.Library.FiniteMap
import AcornAlarms.Model.Publish
import AcornAlarms.Model.Snooze

/-!
# The workflow handler

Runs each job through `workflowOrder`, one effect at a time. A handler function
returns the new handler with the messages it sent, or the text of the `expect`
that ended the task.
-/

namespace AcornAlarms

open Library

variable [Platform]

/-- A unit of work: a status to persist under a key. -/
structure Job where
  id : Nat
  key : Key
  status : Status
  userInitiated : Bool
deriving DecidableEq

/-- The details a job publishes. -/
def Job.publishDetails (job : Job) : PublishDetails := ⟨job.key, job.status⟩

/-- The result of a completed job, or a wake-up. -/
inductive JobOutcome where
  | committed (job : Job)
  | failed (job : Job)
  | wake (key : Key)
deriving DecidableEq

inductive Effect where
  | publish
  | snooze
deriving DecidableEq

/-- The fixed order in which effects are executed for every job. -/
def workflowOrder : List Effect := [.snooze, .publish]

/-- A job with the number of effects dispatched for it. -/
structure TrackedJob where
  job : Job
  step : Nat
deriving DecidableEq

def TrackedJob.from (job : Job) : TrackedJob := ⟨job, 0⟩

/-- Which of the handler's receivers are still alive; a send to a dropped one fails. -/
structure WorkflowPorts where
  coordinator : Bool
  publish : Bool
  snooze : Bool

/-- Every receiver alive. -/
def WorkflowPorts.alive : WorkflowPorts := ⟨true, true, true⟩

/-- A message the handler sends. -/
inductive WorkflowSend where
  | outcome (outcome : JobOutcome)
  | publish (publish : Publish)
  | snooze (input : SnoozeInput)
deriving DecidableEq

/-- Sequences per-key effect pipelines, one job for each key. -/
structure WorkflowHandler where
  jobs : FiniteMap Key TrackedJob
deriving DecidableEq

/-- What a handler function leaves behind. `overran` holds the keys for which
"Overran workflow steps!" was logged. -/
structure Worked where
  handler : WorkflowHandler
  sends : List WorkflowSend
  overran : List Key

namespace WorkflowHandler

def new : WorkflowHandler := ⟨.empty⟩

def addWork (self : WorkflowHandler) (key : Key) (job : Job) : WorkflowHandler :=
  { self with jobs := self.jobs.insert key (.from job) }

def removeWork (self : WorkflowHandler) (key : Key) : Except String (Job × WorkflowHandler) :=
  match self.jobs.get? key with
  | some tracked => .ok (tracked.job, { self with jobs := self.jobs.erase key })
  | none => .error "Every key must have an associated job"

def lookupJob (self : WorkflowHandler) (key : Key) : Except String Job :=
  match self.jobs.get? key with
  | some tracked => .ok tracked.job
  | none => .error "Every key must have an associated job"

/-- The outcome send ignores a dropped coordinator. -/
def sendOutcome (ports : WorkflowPorts) (outcome : JobOutcome) : List WorkflowSend :=
  if ports.coordinator then [.outcome outcome] else []

def sendFailed (self : WorkflowHandler) (ports : WorkflowPorts) (key : Key) :
    Except String Worked := do
  let (job, self) ← self.removeWork key
  return ⟨self, sendOutcome ports (.failed job), []⟩

/-- `none` when the scheduler's receiver is dropped. -/
def snooze (self : WorkflowHandler) (ports : WorkflowPorts) (key : Key) :
    Except String (Option WorkflowSend) := do
  let job ← self.lookupJob key
  return if ports.snooze then some (.snooze ⟨key, job.status.wake⟩) else none

/-- `none` when the publish engine's receiver is dropped. -/
def publish (self : WorkflowHandler) (ports : WorkflowPorts) (key : Key) :
    Except String (Option WorkflowSend) := do
  let job ← self.lookupJob key
  let details := job.publishDetails
  let publish := if job.userInitiated then Publish.user details else Publish.automated details
  return if ports.publish then some (.publish publish) else none

def dispatchEffect (self : WorkflowHandler) (ports : WorkflowPorts) (effect : Effect) (key : Key) :
    Except String (Option WorkflowSend) :=
  match effect with
  | .snooze => self.snooze ports key
  | .publish => self.publish ports key

def advanceWorkflow (self : WorkflowHandler) (ports : WorkflowPorts) (key : Key) :
    Except String Worked :=
  match self.jobs.get? key with
  | none => .error "All workflow jobs have a step counter"
  | some tracked => do
      let next := tracked.step
      let self := { self with jobs := self.jobs.insert key { tracked with step := next + 1 } }
      match workflowOrder[next]? with
      | some effect =>
          match ← self.dispatchEffect ports effect key with
          | some message => return ⟨self, [message], []⟩
          | none => self.sendFailed ports key
      | none =>
          let worked ← self.sendFailed ports key
          return { worked with overran := [key] }

def handleNewJob (self : WorkflowHandler) (ports : WorkflowPorts) (job : Job) :
    Except String Worked :=
  let key := job.key
  (self.addWork key job).advanceWorkflow ports key

def handleSnoozeResult (self : WorkflowHandler) (ports : WorkflowPorts) :
    SnoozeOutcome → Except String Worked
  | .accepted key => self.advanceWorkflow ports key
  | .expired key => .ok ⟨self, sendOutcome ports (.wake key), []⟩
  | .invalidWake key => self.sendFailed ports key

def dispatchPublishResult (self : WorkflowHandler) (ports : WorkflowPorts)
    (result : PublishResult) : Except String Worked := do
  let succeeded := result.isOk
  let key := result.intoInner
  let (job, self) ← self.removeWork key
  let outcome := if succeeded then JobOutcome.committed job else JobOutcome.failed job
  return ⟨self, sendOutcome ports outcome, []⟩

/-- The loop over the results of a batch. -/
def dispatchPublishResults (self : WorkflowHandler) (ports : WorkflowPorts) :
    List PublishResult → Except String Worked
  | [] => .ok ⟨self, [], []⟩
  | result :: rest => do
      let first ← self.dispatchPublishResult ports result
      let later ← first.handler.dispatchPublishResults ports rest
      return ⟨later.handler, first.sends ++ later.sends, first.overran ++ later.overran⟩

def handlePublishOutcome (self : WorkflowHandler) (ports : WorkflowPorts) :
    PublishOutcome → Except String Worked
  | .batch batch => self.dispatchPublishResults ports batch
  | .single single => self.dispatchPublishResult ports single

end WorkflowHandler

/-- The request the publish step of a job sends. -/
def Job.publishRequest (job : Job) : Publish :=
  if job.userInitiated then .user job.publishDetails else .automated job.publishDetails

@[simp] theorem Job.publishRequest_details (job : Job) :
    job.publishRequest.detailsRef = job.publishDetails := by
  unfold Job.publishRequest
  split <;> rfl

/-- The outcome of a job whose publish step returned. -/
def Job.outcome (job : Job) : Bool → JobOutcome
  | true => .committed job
  | false => .failed job

namespace WorkflowHandler

variable {self : WorkflowHandler} {ports : WorkflowPorts}

theorem sendFailed_of (ports : WorkflowPorts) {key : Key} {tracked : TrackedJob}
    (found : self.jobs.get? key = some tracked) :
    self.sendFailed ports key =
      .ok ⟨⟨self.jobs.erase key⟩, sendOutcome ports (.failed tracked.job), []⟩ := by
  simp [sendFailed, removeWork, found, bind, Except.bind, pure, Except.pure]

theorem sendFailed_eq (alive : ports.coordinator = true) {key : Key} {tracked : TrackedJob}
    (found : self.jobs.get? key = some tracked) :
    self.sendFailed ports key =
      .ok ⟨⟨self.jobs.erase key⟩, [.outcome (.failed tracked.job)], []⟩ := by
  rw [sendFailed_of ports found, sendOutcome, if_pos alive]

/-- The first advance of a job sends its snooze command. -/
theorem advanceWorkflow_snooze (alive : ports.snooze = true) {key : Key} {job : Job}
    (found : self.jobs.get? key = some ⟨job, 0⟩) :
    self.advanceWorkflow ports key =
      .ok ⟨⟨self.jobs.insert key ⟨job, 1⟩⟩, [.snooze ⟨key, job.status.wake⟩], []⟩ := by
  simp [advanceWorkflow, found, workflowOrder, dispatchEffect, snooze, lookupJob, alive, bind,
    Except.bind, pure, Except.pure]

/-- The second advance of a job sends its publish request. -/
theorem advanceWorkflow_publish (alive : ports.publish = true) {key : Key} {job : Job}
    (found : self.jobs.get? key = some ⟨job, 1⟩) :
    self.advanceWorkflow ports key =
      .ok ⟨⟨self.jobs.insert key ⟨job, 2⟩⟩, [.publish job.publishRequest], []⟩ := by
  simp [advanceWorkflow, found, workflowOrder, dispatchEffect, publish, lookupJob, alive, bind,
    Except.bind, pure, Except.pure, Job.publishRequest]

theorem handleNewJob_eq (alive : ports.snooze = true) (job : Job) :
    self.handleNewJob ports job =
      .ok ⟨⟨(self.addWork job.key job).jobs.insert job.key ⟨job, 1⟩⟩,
        [.snooze ⟨job.key, job.status.wake⟩], []⟩ := by
  have found : (self.addWork job.key job).jobs.get? job.key = some ⟨job, 0⟩ := by
    simp [addWork, TrackedJob.from]
  simp only [handleNewJob, advanceWorkflow_snooze alive found]

theorem dispatchPublishResult_of (ports : WorkflowPorts) {result : PublishResult}
    {tracked : TrackedJob} (found : self.jobs.get? result.intoInner = some tracked) :
    self.dispatchPublishResult ports result =
      .ok ⟨⟨self.jobs.erase result.intoInner⟩,
        sendOutcome ports (tracked.job.outcome result.isOk), []⟩ := by
  cases delivered : result.isOk <;>
    simp [dispatchPublishResult, removeWork, found, bind, Except.bind, pure, Except.pure,
      delivered, Job.outcome]

theorem dispatchPublishResult_eq (alive : ports.coordinator = true) {result : PublishResult}
    {tracked : TrackedJob} (found : self.jobs.get? result.intoInner = some tracked) :
    self.dispatchPublishResult ports result =
      .ok ⟨⟨self.jobs.erase result.intoInner⟩,
        [.outcome (tracked.job.outcome result.isOk)], []⟩ := by
  rw [dispatchPublishResult_of ports found, sendOutcome, if_pos alive]

/-- A batch that names each tracked key at most once is dispatched result by result:
its keys are untracked and their outcomes sent in order. -/
theorem dispatchPublishResults_eq (alive : ports.coordinator = true) {batch : List PublishResult}
    (distinct : (batch.map SymmetricalResult.intoInner).Nodup)
    (tracked : ∀ result ∈ batch, (self.jobs.get? result.intoInner).isSome) :
    ∃ next, self.dispatchPublishResults ports batch =
        .ok ⟨next, (batch.filterMap fun result => (self.jobs.get? result.intoInner).map
          fun work => .outcome (work.job.outcome result.isOk)), []⟩ ∧
      ∀ key, next.jobs.get? key =
        if key ∈ batch.map SymmetricalResult.intoInner then none else self.jobs.get? key := by
  induction batch generalizing self with
  | nil => exact ⟨self, rfl, by simp⟩
  | cons result rest ih =>
      obtain ⟨work, found⟩ := Option.isSome_iff_exists.mp (tracked result (by simp))
      rw [List.map_cons, List.nodup_cons] at distinct
      -- The later results name other keys, so the first removal leaves their jobs.
      have kept : ∀ later ∈ rest, (self.jobs.erase result.intoInner).get? later.intoInner =
          self.jobs.get? later.intoInner := by
        intro later member
        apply FiniteMap.get?_erase_of_ne
        intro same
        exact distinct.1 (same ▸ List.mem_map_of_mem member)
      obtain ⟨next, computed, removed⟩ := @ih ⟨self.jobs.erase result.intoInner⟩ distinct.2
        (by
          intro later member
          simp only [kept later member]
          exact tracked later (List.mem_cons_of_mem _ member))
      refine ⟨next, ?_, ?_⟩
      · have sends : (rest.filterMap fun later =>
            ((self.jobs.erase result.intoInner).get? later.intoInner).map
              fun work => WorkflowSend.outcome (work.job.outcome later.isOk)) =
            rest.filterMap fun later => (self.jobs.get? later.intoInner).map
              fun work => WorkflowSend.outcome (work.job.outcome later.isOk) := by
          apply List.filterMap_congr
          intro later member
          rw [kept later member]
        simp [dispatchPublishResults, dispatchPublishResult_eq alive found, computed, sends, found,
          bind, Except.bind, pure, Except.pure]
      · intro key
        rw [removed key, FiniteMap.get?_erase]
        by_cases same : key = result.intoInner
        · simp [same]
        · simp [same]

/-- What a job's next effect leaves behind, by the key's job afterwards: the effect was sent, or
the job failed because its receiver is gone. -/
inductive Advanced (self : WorkflowHandler) (ports : WorkflowPorts) (job : Job) (step : Nat)
    (message : WorkflowSend) : Except String Worked → Prop where
  | sent {handler}
      (tracks : ∀ key, handler.jobs.get? key =
        if key = job.key then some ⟨job, step⟩ else self.jobs.get? key) :
      Advanced self ports job step message (.ok ⟨handler, [message], []⟩)
  | failed {handler}
      (tracks : ∀ key, handler.jobs.get? key =
        if key = job.key then none else self.jobs.get? key) :
      Advanced self ports job step message (.ok ⟨handler, sendOutcome ports (.failed job), []⟩)

theorem handleNewJob_advanced (self : WorkflowHandler) (ports : WorkflowPorts) (job : Job) :
    Advanced self ports job 1 (.snooze ⟨job.key, job.status.wake⟩)
      (self.handleNewJob ports job) := by
  cases alive : ports.snooze with
  | true =>
      rw [handleNewJob_eq alive]
      refine .sent fun key => ?_
      by_cases same : key = job.key <;> simp [addWork, FiniteMap.get?_insert, same]
  | false =>
      let advanced : WorkflowHandler := ⟨(self.addWork job.key job).jobs.insert job.key ⟨job, 1⟩⟩
      have found : advanced.jobs.get? job.key = some ⟨job, 1⟩ := FiniteMap.get?_insert_self _ _ _
      have fails : self.handleNewJob ports job = advanced.sendFailed ports job.key := by
        simp [advanced, handleNewJob, advanceWorkflow, addWork, TrackedJob.from, workflowOrder,
          dispatchEffect, snooze, lookupJob, alive, bind, Except.bind, pure, Except.pure]
      rw [fails, sendFailed_of ports found]
      refine .failed fun key => ?_
      by_cases same : key = job.key <;>
        simp [advanced, addWork, FiniteMap.get?_insert, FiniteMap.get?_erase, same]

theorem accepted_advanced (ports : WorkflowPorts) {job : Job}
    (found : self.jobs.get? job.key = some ⟨job, 1⟩) :
    Advanced self ports job 2 (.publish job.publishRequest)
      (self.handleSnoozeResult ports (.accepted job.key)) := by
  cases alive : ports.publish with
  | true =>
      rw [handleSnoozeResult, advanceWorkflow_publish alive found]
      refine .sent fun key => ?_
      simp [FiniteMap.get?_insert]
  | false =>
      let advanced : WorkflowHandler := ⟨self.jobs.insert job.key ⟨job, 2⟩⟩
      have tracked : advanced.jobs.get? job.key = some ⟨job, 2⟩ := FiniteMap.get?_insert_self _ _ _
      have fails : self.handleSnoozeResult ports (.accepted job.key) =
          advanced.sendFailed ports job.key := by
        simp [advanced, handleSnoozeResult, advanceWorkflow, found, workflowOrder, dispatchEffect,
          publish, lookupJob, alive, bind, Except.bind, pure, Except.pure]
      rw [fails, sendFailed_of ports tracked]
      refine .failed fun key => ?_
      by_cases same : key = job.key <;>
        simp [advanced, FiniteMap.get?_insert, FiniteMap.get?_erase, same]

/-- Both kinds of publish outcome are dispatched result by result. -/
theorem handlePublishOutcome_eq (alive : ports.coordinator = true) {outcome : PublishOutcome}
    (distinct : (outcome.results.map SymmetricalResult.intoInner).Nodup)
    (tracked : ∀ result ∈ outcome.results, (self.jobs.get? result.intoInner).isSome) :
    ∃ next, self.handlePublishOutcome ports outcome =
        .ok ⟨next, (outcome.results.filterMap fun result =>
          (self.jobs.get? result.intoInner).map
            fun work => .outcome (work.job.outcome result.isOk)), []⟩ ∧
      ∀ key, next.jobs.get? key =
        if key ∈ outcome.results.map SymmetricalResult.intoInner then none
        else self.jobs.get? key := by
  cases outcome with
  | batch batch => exact dispatchPublishResults_eq alive distinct tracked
  | single single =>
      obtain ⟨work, found⟩ := Option.isSome_iff_exists.mp
        (tracked single (by simp [PublishOutcome.results]))
      refine ⟨⟨self.jobs.erase single.intoInner⟩, ?_, ?_⟩
      · simp [handlePublishOutcome, dispatchPublishResult_eq alive found, PublishOutcome.results,
          found]
      · intro key
        simp [PublishOutcome.results, FiniteMap.get?_erase]

/-- What a handler function sends, if it returns, holds no wake-up. -/
def Wakeless (result : Except String Worked) : Prop :=
  ∀ worked, result = .ok worked → ∀ key, .outcome (.wake key) ∉ worked.sends

theorem sendFailed_wakeless (key : Key) : Wakeless (self.sendFailed ports key) := by
  intro worked handled other
  cases found : self.jobs.get? key with
  | none => simp [sendFailed, removeWork, found, bind, Except.bind] at handled
  | some tracked =>
      simp only [sendFailed, removeWork, found, bind, Except.bind, pure, Except.pure,
        Except.ok.injEq] at handled
      subst handled
      unfold sendOutcome
      split <;> simp

/-- An effect is a snooze command or a publish request. -/
theorem dispatchEffect_wakeless {effect : Effect} {key : Key} {message : WorkflowSend}
    (sent : self.dispatchEffect ports effect key = .ok (some message)) (other : Key) :
    .outcome (.wake other) ≠ message := by
  rintro rfl
  cases found : self.jobs.get? key with
  | none =>
      cases effect <;>
        simp [dispatchEffect, snooze, publish, lookupJob, found, bind, Except.bind] at sent
  | some tracked =>
      cases effect <;>
        simp [dispatchEffect, snooze, publish, lookupJob, found, bind, Except.bind, pure,
          Except.pure] at sent

theorem advanceWorkflow_wakeless (key : Key) : Wakeless (self.advanceWorkflow ports key) := by
  intro worked handled other
  unfold advanceWorkflow at handled
  split at handled
  · cases handled
  · simp only [bind, Except.bind, pure, Except.pure] at handled
    split at handled
    · split at handled
      · cases handled
      · next sent =>
          split at handled
          · obtain rfl := Except.ok.inj handled
            rw [List.mem_singleton]
            exact dispatchEffect_wakeless sent other
          · exact sendFailed_wakeless key worked handled other
    · split at handled
      · cases handled
      · next sent =>
          obtain rfl := Except.ok.inj handled
          exact sendFailed_wakeless key _ sent other

theorem handleNewJob_wakeless (job : Job) : Wakeless (self.handleNewJob ports job) :=
  advanceWorkflow_wakeless job.key

theorem dispatchPublishResult_wakeless (result : PublishResult) :
    Wakeless (self.dispatchPublishResult ports result) := by
  intro worked handled other
  cases found : self.jobs.get? result.intoInner with
  | none => simp [dispatchPublishResult, removeWork, found, bind, Except.bind] at handled
  | some tracked =>
      simp only [dispatchPublishResult, removeWork, found, bind, Except.bind, pure, Except.pure,
        Except.ok.injEq] at handled
      subst handled
      unfold sendOutcome
      split
      · split <;> simp
      · exact List.not_mem_nil

theorem dispatchPublishResults_wakeless (batch : List PublishResult) :
    Wakeless (self.dispatchPublishResults ports batch) := by
  induction batch generalizing self with
  | nil =>
      intro worked handled other
      obtain rfl := Except.ok.inj handled
      exact List.not_mem_nil
  | cons result rest ih =>
      intro worked handled other
      simp only [dispatchPublishResults, bind, Except.bind, pure, Except.pure] at handled
      split at handled
      · cases handled
      · next first early =>
          split at handled
          · cases handled
          · next later late =>
              obtain rfl := Except.ok.inj handled
              rw [List.mem_append, not_or]
              exact ⟨dispatchPublishResult_wakeless result first early other,
                ih later late other⟩

theorem handlePublishOutcome_wakeless (outcome : PublishOutcome) :
    Wakeless (self.handlePublishOutcome ports outcome) := by
  cases outcome with
  | batch batch => exact dispatchPublishResults_wakeless batch
  | single single => exact dispatchPublishResult_wakeless single

end WorkflowHandler

end AcornAlarms
