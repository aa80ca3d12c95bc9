import AcornAlarms.Lanes.Desk
import AcornAlarms.Lanes.Stage

/-!
# The abstract service

What the pipeline is for, with its tasks and channels forgotten: a desk that
decides, and for every key one lane on which at most one job travels. A lane is
busy exactly while the desk holds speculative state for its key.
-/

namespace AcornAlarms

open Library

variable [Platform]

/-- A desk with one lane for each key. -/
structure Lanes where
  desk : AlarmStateCoordinator
  stage : Key → Stage
  owned : ∀ {key job}, (stage key).job? = some job → job.key = key
  busy : ∀ key, (desk.speculativeState.get? key).isSome = (stage key).job?.isSome

/-- An event that concerns no lane. A snapshot shows what the desk has confirmed. -/
def Event.Quiet (desk : AlarmStateCoordinator) : Event → Prop
  | .refused _ _ | .woke _ | .expired _ => True
  | .snapshot _ statuses => statuses = desk.snapshotOf
  | _ => False

/-- What is found at no quiet event. -/
theorem Event.Quiet.eq_none {α : Type} {desk : AlarmStateCoordinator} {event : Event}
    {pick : Event → Option α} (quiet : event.Quiet desk)
    (refused : ∀ confirmation error, pick (.refused confirmation error) = none)
    (woke : ∀ key, pick (.woke key) = none) (expired : ∀ key, pick (.expired key) = none)
    (snapshot : ∀ sender statuses, pick (.snapshot sender statuses) = none) :
    pick event = none := by
  cases event with
  | refused confirmation error => exact refused confirmation error
  | woke key => exact woke key
  | expired key => exact expired key
  | snapshot sender statuses => exact snapshot sender statuses
  | _ => exact quiet.elim

/-- A job travels one stage without the desk. -/
inductive Stage.Move (key : Key) : Stage → List Event → Stage → Prop where
  | receive {job} : Move key (.queued job) [] (.snoozing job)
  | answer {job accepted} :
      Move key (.snoozing job) [.answered key job.status.wake accepted] (.answered job accepted)
  | advance {job} : Move key (.answered job true) [] (.publishing job)
  | reject {job} : Move key (.answered job false) [] (.settled job false)
  | attempt {job} : Move key (.publishing job) [] (.attempting job 1)
  | retry {job number} (again : number < maxDeliveryAttempts) :
      Move key (.attempting job number) [.published key job.status false]
        (.attempting job (number + 1))
  | deliver {job number ok} (spent : ok = false → maxDeliveryAttempts ≤ number) :
      Move key (.attempting job number) [.published key job.status ok] (.delivered job ok)

theorem Stage.Move.job? {key : Key} {stage next : Stage} {events : List Event}
    (move : Stage.Move key stage events next) : next.job? = stage.job? := by
  cases move <;> rfl

namespace Lanes

/-- One turn of the service. -/
inductive Step (lanes : Lanes) : List Event → Lanes → Prop where
  /-- Nothing is decided and no job travels. -/
  | still {events} (quiet : ∀ event ∈ events, event.Quiet lanes.desk) : Step lanes events lanes
  /-- A status is recorded for an idle key and its job dispatched. -/
  | start {key status confirmation before job next}
      (decides : lanes.desk.Decides key status confirmation)
      (quiet : ∀ event ∈ before, event.Quiet lanes.desk)
      (idle : lanes.stage key = .idle)
      (opens : (lanes.desk.record key status confirmation).nextJob key = some job)
      (desk : next.desk = lanes.desk.record key status confirmation)
      (stage : next.stage = Function.update lanes.stage key (.queued job)) :
      Step lanes (before ++ [lanes.desk.recordEvent key status confirmation, .dispatched job]) next
  /-- A status is recorded for a busy key. -/
  | displace {key status confirmation before job next}
      (decides : lanes.desk.Decides key status confirmation)
      (quiet : ∀ event ∈ before, event.Quiet lanes.desk)
      (under : (lanes.stage key).job? = some job)
      (desk : next.desk = lanes.desk.record key status confirmation)
      (stage : next.stage = lanes.stage) :
      Step lanes (before ++ [lanes.desk.recordEvent key status confirmation]) next
  /-- One job travels one stage. -/
  | travel {key events reached next} (move : Stage.Move key (lanes.stage key) events reached)
      (desk : next.desk = lanes.desk)
      (stage : next.stage = Function.update lanes.stage key reached) :
      Step lanes events next
  /-- The handler reports any number of returned jobs. -/
  | report {next} (desk : next.desk = lanes.desk)
      (each : ∀ key, next.stage key = lanes.stage key ∨
        ∃ job ok, lanes.stage key = .delivered job ok ∧ next.stage key = .settled job ok) :
      Step lanes [] next
  /-- A job commits and was the latest intent. -/
  | commitLast {job status next} (arrived : lanes.stage job.key = .settled job true)
      (latest : lanes.desk.speculativeState.get? job.key = some (status, job.id))
      (desk : next.desk = ((lanes.desk.settle job).clear job.key).confirm job)
      (stage : next.stage = Function.update lanes.stage job.key .idle) :
      Step lanes (lanes.desk.settleEvents job (.ok ()) ++ [.committed job]) next
  /-- A job commits and a newer intent is dispatched. -/
  | commitNext {job status id newJob next} (arrived : lanes.stage job.key = .settled job true)
      (latest : lanes.desk.speculativeState.get? job.key = some (status, id))
      (newer : id ≠ job.id)
      (follows : (lanes.desk.settle job).nextJob job.key = some newJob)
      (desk : next.desk = (lanes.desk.settle job).confirm job)
      (stage : next.stage = Function.update lanes.stage job.key (.queued newJob)) :
      Step lanes (lanes.desk.settleEvents job (.ok ()) ++ [.dispatched newJob, .committed job]) next
  /-- A user job fails as the latest intent: the confirmed status is dispatched again. -/
  | rollBack {job status newJob next} (arrived : lanes.stage job.key = .settled job false)
      (latest : lanes.desk.speculativeState.get? job.key = some (status, job.id))
      (user : job.userInitiated = true)
      (follows : ((lanes.desk.settle job).convergeToLastConfirmed job.key).nextJob job.key =
        some newJob)
      (desk : next.desk = (lanes.desk.settle job).convergeToLastConfirmed job.key)
      (stage : next.stage = Function.update lanes.stage job.key (.queued newJob)) :
      Step lanes (lanes.desk.settleEvents job (.error (.internal job.key)) ++
        [.failed job, .dispatched newJob]) next
  /-- A job fails and the latest intent is dispatched. -/
  | redispatch {job status id newJob next} (arrived : lanes.stage job.key = .settled job false)
      (latest : lanes.desk.speculativeState.get? job.key = some (status, id))
      (keeps : ¬ (id = job.id ∧ job.userInitiated = true))
      (follows : (lanes.desk.settle job).nextJob job.key = some newJob)
      (desk : next.desk = lanes.desk.settle job)
      (stage : next.stage = Function.update lanes.stage job.key (.queued newJob)) :
      Step lanes (lanes.desk.settleEvents job (.error (.internal job.key)) ++
        [.failed job, .dispatched newJob]) next

/-- All lanes idle and the hydrated statuses confirmed. -/
def start (hydratedStatuses : FiniteMap Key Status) : Lanes where
  desk := .new hydratedStatuses
  stage := fun _ => .idle
  owned := by simp [Stage.job?]
  busy := by simp [AlarmStateCoordinator.new, Stage.job?]

variable (lanes : Lanes)

/-- The lanes after jobs traveled without the desk. -/
def relabel (stage : Key → Stage) (same : ∀ key, (stage key).job? = (lanes.stage key).job?) :
    Lanes where
  desk := lanes.desk
  stage := stage
  owned := by
    intro key job found
    rw [same key] at found
    exact lanes.owned found
  busy := by
    intro key
    rw [lanes.busy key, same key]

/-- The lanes after the job of one key traveled. -/
def travel (key : Key) (reached : Stage) (same : reached.job? = (lanes.stage key).job?) :
    Lanes :=
  lanes.relabel (Function.update lanes.stage key reached) (by
    intro other
    rcases eq_or_ne other key with rfl | different
    · rw [Function.update_self, same]
    · rw [Function.update_of_ne different])

/-- The lanes after the desk set or dropped the speculative entry of one key and
put a new job on its lane, or none. -/
def seat (key : Key) (desk : AlarmStateCoordinator) (reached : Stage)
    (owned : ∀ job, reached.job? = some job → job.key = key)
    (busy : (desk.speculativeState.get? key).isSome = reached.job?.isSome)
    (others : ∀ other, other ≠ key →
      desk.speculativeState.get? other = lanes.desk.speculativeState.get? other) : Lanes where
  desk := desk
  stage := Function.update lanes.stage key reached
  owned := by
    intro other job found
    rcases eq_or_ne other key with rfl | different
    · rw [Function.update_self] at found
      exact owned job found
    · rw [Function.update_of_ne different] at found
      exact lanes.owned found
  busy := by
    intro other
    rcases eq_or_ne other key with rfl | different
    · rw [Function.update_self, busy]
    · rw [Function.update_of_ne different, others other different, lanes.busy other]

end Lanes

end AcornAlarms
