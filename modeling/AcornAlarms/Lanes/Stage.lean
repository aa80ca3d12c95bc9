import AcornAlarms.Runtime.Pipeline
import Mathlib.Logic.Function.Basic

/-!
# The stages of a job

A key has at most one job on its way, and `Stage` says where it is. The lists of a
stage are what the channels and tasks then hold for the key, and `Occupies` ties
them to a pipeline.
-/

namespace AcornAlarms

open Library

variable [Platform]

/-- Where the one job of a key is. -/
inductive Stage where
  | idle
  /-- In the job queue. -/
  | queued (job : Job)
  /-- Its snooze command is in the snooze queue. -/
  | snoozing (job : Job)
  /-- The scheduler's answer is on its way back. -/
  | answered (job : Job) (accepted : Bool)
  /-- Its request is in the publish queue. -/
  | publishing (job : Job)
  /-- The engine has an attempt under way. -/
  | attempting (job : Job) (attempt : Nat)
  /-- The result is in the completed batch or on its way back. -/
  | delivered (job : Job) (ok : Bool)
  /-- The outcome is in the job-outcome queue. -/
  | settled (job : Job) (ok : Bool)

namespace Stage

/-- The job a stage is about. -/
def job? : Stage → Option Job
  | idle => none
  | queued job | snoozing job | answered job _ | publishing job | attempting job _
  | delivered job _ | settled job _ => some job

def jobs : Stage → List Job
  | queued job => [job]
  | _ => []

def tracked : Stage → Option TrackedJob
  | snoozing job | answered job _ => some ⟨job, 1⟩
  | publishing job | attempting job _ | delivered job _ => some ⟨job, 2⟩
  | _ => none

def commands : Stage → List SnoozeInput
  | snoozing job => [⟨job.key, job.status.wake⟩]
  | _ => []

def replies : Stage → List Bool
  | answered _ accepted => [accepted]
  | _ => []

def requests : Stage → List Publish
  | publishing job => [job.publishRequest]
  | _ => []

def attempts : Stage → List PublishAttempt
  | attempting job attempt => [⟨job.publishRequest, attempt⟩]
  | _ => []

def results : Stage → List Bool
  | delivered _ ok => [ok]
  | _ => []

def outcomes : Stage → List (Job × Bool)
  | settled job ok => [(job, ok)]
  | _ => []

/-- The stage after the handler reported the result of a delivered job. -/
def report : Stage → Stage
  | delivered job ok => settled job ok
  | stage => stage

@[simp] theorem report_job? (stage : Stage) : stage.report.job? = stage.job? := by
  cases stage <;> rfl

variable {stage : Stage}

theorem jobs_cons {job : Job} {rest : List Job} (head : job :: rest = stage.jobs) :
    stage = .queued job ∧ rest = [] := by
  cases stage <;> simp_all [jobs]

theorem commands_cons {input : SnoozeInput} {rest : List SnoozeInput}
    (head : input :: rest = stage.commands) :
    ∃ job, stage = .snoozing job ∧ input = ⟨job.key, job.status.wake⟩ ∧ rest = [] := by
  cases stage <;> simp_all [commands]

theorem replies_cons {accepted : Bool} {rest : List Bool}
    (head : accepted :: rest = stage.replies) :
    ∃ job, stage = .answered job accepted ∧ rest = [] := by
  cases stage <;> simp_all [replies]

theorem requests_cons {request : Publish} {rest : List Publish}
    (head : request :: rest = stage.requests) :
    ∃ job, stage = .publishing job ∧ request = job.publishRequest ∧ rest = [] := by
  cases stage <;> simp_all [requests]

theorem mem_requests {request : Publish} (member : request ∈ stage.requests) :
    ∃ job, stage = .publishing job ∧ request = job.publishRequest := by
  cases stage with
  | publishing job => exact ⟨job, rfl, List.mem_singleton.mp member⟩
  | _ => cases member

/-- A stage has at most one attempt, so nothing stands before or after it. -/
theorem attempts_split {attempt : PublishAttempt} {before after : List PublishAttempt}
    (split : before ++ attempt :: after = stage.attempts) :
    ∃ job number, stage = .attempting job number ∧ attempt = ⟨job.publishRequest, number⟩ ∧
      before = [] ∧ after = [] := by
  cases before with
  | nil => cases stage <;> simp_all [attempts]
  | cons => cases stage <;> simp [attempts] at split

theorem results_cons {ok : Bool} {rest : List Bool} (head : ok :: rest = stage.results) :
    ∃ job, stage = .delivered job ok ∧ rest = [] := by
  cases stage <;> simp_all [results]

theorem outcomes_cons {job : Job} {ok : Bool} {rest : List (Job × Bool)}
    (head : (job, ok) :: rest = stage.outcomes) : stage = .settled job ok ∧ rest = [] := by
  cases stage <;> simp_all [outcomes]

theorem eq_idle_of_job? (none : stage.job? = .none) : stage = .idle := by
  cases stage <;> simp_all [job?]

end Stage

/-- The answer a snooze outcome gives to a command of a key, if it is one. -/
def replyFor (key : Key) : SnoozeOutcome → Option Bool
  | .accepted other => if other = key then some true else none
  | .invalidWake other => if other = key then some false else none
  | .expired _ => none

/-- Whether a publish result of a key is a success, if it is of that key. -/
def resultFor (key : Key) (result : PublishResult) : Option Bool :=
  if result.intoInner = key then some result.isOk else none

/-- The job of a key an outcome settles, and how. -/
def outcomeFor (key : Key) : JobOutcome → Option (Job × Bool)
  | .committed job => if job.key = key then some (job, true) else none
  | .failed job => if job.key = key then some (job, false) else none
  | .wake _ => none

@[simp] theorem outcomeFor_outcome (key : Key) (job : Job) (ok : Bool) :
    outcomeFor key (job.outcome ok) = if job.key = key then some (job, ok) else none := by
  cases ok <;> rfl

@[simp] theorem replyFor_answer (key : Key) (clock : Clock) (input : SnoozeInput) :
    replyFor key (SnoozeScheduler.answer clock input) =
      if input.key = key then some (SnoozeScheduler.accepts clock input) else none := by
  cases accepted : SnoozeScheduler.accepts clock input <;>
    simp [SnoozeScheduler.answer, accepted, replyFor]

namespace Pipeline

variable (self : Pipeline) (key : Key)

def jobsOf : List Job := self.jobs.filter fun job => job.key = key
def commandsOf : List SnoozeInput := self.snoozeInputs.filter fun input => input.key = key
def repliesOf : List Bool := self.snoozeOutcomes.filterMap (replyFor key)
def requestsOf : List Publish := self.publishes.filter fun request => request.detailsRef.key = key
def attemptsOf : List PublishAttempt :=
  self.engine.inFlight.filter fun attempt => attempt.detailsRef.key = key

/-- All results of the engine not yet taken by the handler, oldest first. -/
def results : List PublishResult :=
  self.publishOutcomes.flatMap PublishOutcome.results ++ self.engine.completedBatch

def resultsOf : List Bool := self.results.filterMap (resultFor key)
def outcomesOf : List (Job × Bool) := self.jobOutcomes.filterMap (outcomeFor key)

/-- The jobs of a key in the job queue, in the handler and in the job-outcome queue. -/
def outstanding : List Job :=
  self.jobsOf key ++ (self.handler.jobs.get? key).toList.map TrackedJob.job ++
    (self.outcomesOf key).map Prod.fst

end Pipeline

/-- The channels and tasks hold for a key exactly what its stage says. -/
structure Occupies (pipeline : Pipeline) (key : Key) (stage : Stage) : Prop where
  jobs : pipeline.jobsOf key = stage.jobs
  tracked : pipeline.handler.jobs.get? key = stage.tracked
  commands : pipeline.commandsOf key = stage.commands
  replies : pipeline.repliesOf key = stage.replies
  requests : pipeline.requestsOf key = stage.requests
  attempts : pipeline.attemptsOf key = stage.attempts
  results : pipeline.resultsOf key = stage.results
  outcomes : pipeline.outcomesOf key = stage.outcomes

/-- The job of a stage is the one outstanding for the key. -/
theorem Occupies.outstanding_eq {pipeline : Pipeline} {key : Key} {stage : Stage}
    (occupies : Occupies pipeline key stage) :
    pipeline.outstanding key = stage.job?.toList := by
  simp only [Pipeline.outstanding, occupies.jobs, occupies.tracked, occupies.outcomes]
  cases stage <;> rfl

end AcornAlarms
