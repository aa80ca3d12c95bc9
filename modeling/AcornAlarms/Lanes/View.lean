import AcornAlarms.Lanes.Decisions
import AcornAlarms.Lanes.Journal

/-!
# What a step is to one key

A step that records nothing for a key leaves the key alone, commits its job or fails
it. A step that records a status for the key makes that status the latest one and
leaves the job under way alone.
-/

namespace AcornAlarms

open Library

variable [Platform]

/-- A job that travels has no outcome yet. -/
theorem Stage.Move.unsettled {key : Key} {stage reached : Stage} {events : List Event}
    (move : Stage.Move key stage events reached) (job : Job) :
    .failed job ∉ events ∧ .committed job ∉ events := by
  cases move <;> simp

/-- The job dispatched for an entry. -/
theorem AlarmStateCoordinator.nextJob_eq {self : AlarmStateCoordinator} {key : Key}
    {status : Status} {id : Nat} (found : self.speculativeState.get? key = some (status, id)) :
    self.nextJob key = some ⟨id, key, status, self.pendingConfirmations.contains id⟩ := by
  rw [nextJob, found]
  rfl

/-- Answering the confirmation of a job leaves those of other ids. -/
theorem AlarmStateCoordinator.settle_contains {self : AlarmStateCoordinator} {job : Job} {id : Nat}
    (other : id ≠ job.id) :
    (self.settle job).pendingConfirmations.contains id = self.pendingConfirmations.contains id := by
  rw [FiniteMap.contains, FiniteMap.contains, settle_pending, if_neg other]

namespace Lanes

variable {lanes next : Lanes} {out : List Event} {key : Key}

/-- Events of which none reports the outcome of a job of the key. -/
def Unsettled (key : Key) (out : List Event) : Prop :=
  ∀ job, job.key = key → .failed job ∉ out ∧ .committed job ∉ out

/-- A step that records nothing for the key, as the key sees it. -/
inductive View (lanes : Lanes) (key : Key) (out : List Event) (next : Lanes) : Prop where
  /-- The job of the key is not reconciled. -/
  | stays (under : next.underway key = lanes.underway key)
      (latest : next.desk.speculativeState.get? key = lanes.desk.speculativeState.get? key)
      (confirmed : next.desk.confirmedState.get? key = lanes.desk.confirmedState.get? key)
      (written : writtenOf key out = [])
      (unsettled : Unsettled key out)
  /-- The job was the latest intent and is committed. -/
  | commitLast {job status} (arrived : lanes.stage key = .settled job true)
      (latest : lanes.desk.speculativeState.get? key = some (status, job.id))
      (confirmed : next.desk.confirmedState.get? key = some (job.status, job.id))
      (stage : next.stage key = .idle)
      (written : writtenOf key out = [job.status])
      (committed : .committed job ∈ out)
      (unfailed : ∀ other, .failed other ∉ out)
  /-- The job is committed and the newer intent is dispatched. -/
  | commitNext {job status id} (arrived : lanes.stage key = .settled job true)
      (latest : lanes.desk.speculativeState.get? key = some (status, id))
      (newer : id ≠ job.id)
      (kept : next.desk.speculativeState.get? key = some (status, id))
      (confirmed : next.desk.confirmedState.get? key = some (job.status, job.id))
      (stage : next.stage key =
        .queued ⟨id, key, status, lanes.desk.pendingConfirmations.contains id⟩)
      (written : writtenOf key out = [job.status])
      (dispatched :
        .dispatched ⟨id, key, status, lanes.desk.pendingConfirmations.contains id⟩ ∈ out)
      (committed : .committed job ∈ out)
      (unfailed : ∀ other, .failed other ∉ out)
  /-- The job failed and an entry is dispatched in its place. -/
  | fails {job status id entry} (arrived : lanes.stage key = .settled job false)
      (latest : lanes.desk.speculativeState.get? key = some (status, id))
      (chosen : entry = if id = job.id ∧ job.userInitiated = true then
        lanes.desk.confirmedOrDefault key else (status, id))
      (kept : next.desk.speculativeState.get? key = some entry)
      (confirmed : next.desk.confirmedState.get? key = lanes.desk.confirmedState.get? key)
      (stage : next.stage key = .queued ⟨entry.2, key, entry.1,
        (lanes.desk.settle job).pendingConfirmations.contains entry.2⟩)
      (dispatched : .dispatched ⟨entry.2, key, entry.1,
        (lanes.desk.settle job).pendingConfirmations.contains entry.2⟩ ∈ out)
      (failed : ∀ other, .failed other ∈ out ↔ other = job)
      (written : writtenOf key out = [])

theorem underway_other {moved : Key} {reached : Stage}
    (stage : next.stage = Function.update lanes.stage moved reached) (different : key ≠ moved) :
    next.underway key = lanes.underway key := by
  rw [underway, underway, stage, Function.update_of_ne different]

/-- An answered confirmation reports no outcome. -/
theorem settleEvents_unsettled (desk : AlarmStateCoordinator) (settled : Job)
    (answer : Except UpdateError Unit) (job : Job) :
    .failed job ∉ desk.settleEvents settled answer ∧
      .committed job ∉ desk.settleEvents settled answer := by
  unfold AlarmStateCoordinator.settleEvents AlarmStateCoordinator.resolve
  split <;> simp

theorem quiet_unsettled {desk : AlarmStateCoordinator} {before : List Event}
    (quiet : ∀ event ∈ before, event.Quiet desk) (job : Job) :
    .failed job ∉ before ∧ .committed job ∉ before :=
  ⟨fun inside => (quiet _ inside).elim, fun inside => (quiet _ inside).elim⟩

/-- The events of a recorded status report no outcome. -/
theorem record_unsettled {desk : AlarmStateCoordinator} {before : List Event}
    (quiet : ∀ event ∈ before, event.Quiet desk) (recorded : Key) (status : Status)
    (confirmation : Option Confirmation) (jobs : List Job) (job : Job) :
    .failed job ∉ before ++ desk.recordEvent recorded status confirmation ::
        jobs.map .dispatched ∧
      .committed job ∉ before ++ desk.recordEvent recorded status confirmation ::
        jobs.map .dispatched := by
  have early := quiet_unsettled quiet job
  cases confirmation <;> simp [early, AlarmStateCoordinator.recordEvent]

/-- The events of a failed job report its failure and no other. -/
theorem failure_settles (desk : AlarmStateCoordinator) (job newJob other : Job) :
    .failed other ∈ desk.settleEvents job (.error (.internal job.key)) ++
      [.failed job, .dispatched newJob] ↔ other = job := by
  simp [(settleEvents_unsettled desk job (.error (.internal job.key)) other).1]

/-- The events of a failed job report no outcome of another key. -/
theorem failure_unsettled (desk : AlarmStateCoordinator) (job newJob : Job)
    (different : key ≠ job.key) :
    Unsettled key (desk.settleEvents job (.error (.internal job.key)) ++
      [.failed job, .dispatched newJob]) := by
  rintro other rfl
  constructor
  · rw [failure_settles]
    rintro rfl
    exact different rfl
  · simp [(settleEvents_unsettled desk job (.error (.internal job.key)) other).2]

/-- The events of a committed job report its commit and no other outcome. -/
theorem commit_unsettled (desk : AlarmStateCoordinator) (job : Job) (dispatched : List Job)
    (different : key ≠ job.key) :
    Unsettled key (desk.settleEvents job (.ok ()) ++
      (dispatched.map .dispatched ++ [.committed job])) := by
  rintro other rfl
  obtain ⟨failed, committed⟩ := settleEvents_unsettled desk job (.ok ()) other
  refine ⟨by simp [failed], fun inside => different ?_⟩
  obtain rfl : other = job := by simpa [committed] using inside
  rfl

/-- A step that records nothing for the key records its status for another one. -/
theorem recorded_other {recorded : Key} {status : Status} {confirmation : Option Confirmation}
    (member : lanes.desk.recordEvent recorded status confirmation ∈ out)
    (unrecorded : ∀ event ∈ out, event.recordKey? ≠ some key) : key ≠ recorded := by
  rintro rfl
  exact unrecorded _ member (lanes.desk.recordEvent_recordKey? key status confirmation)

/-- Every step is one of these to a key it records nothing for. -/
theorem Step.view (step : lanes.Step out next)
    (unrecorded : ∀ event ∈ out, event.recordKey? ≠ some key) : lanes.View key out next := by
  cases step with
  | still quiet =>
      exact .stays rfl rfl rfl (quiet_unpublished quiet key).2 fun job _ => quiet_unsettled quiet job
  | @start started status confirmation before job _ decides quiet idle opens desk stage =>
      have different := recorded_other (List.mem_append_right _ List.mem_cons_self) unrecorded
      refine .stays (underway_other stage different) ?_ ?_ ?_ ?_
      · rw [desk, AlarmStateCoordinator.record_speculativeState,
          FiniteMap.get?_insert_of_ne _ _ different]
      · rw [desk, AlarmStateCoordinator.record_confirmedState]
      · exact (record_unpublished quiet started status confirmation [job] key).2
      · exact fun other _ => record_unsettled quiet started status confirmation [job] other
  | @displace recorded status confirmation before _ _ decides quiet under desk stage =>
      have different := recorded_other (List.mem_append_right _ List.mem_cons_self) unrecorded
      refine .stays (by rw [underway, underway, stage]) ?_ ?_ ?_ ?_
      · rw [desk, AlarmStateCoordinator.record_speculativeState,
          FiniteMap.get?_insert_of_ne _ _ different]
      · rw [desk, AlarmStateCoordinator.record_confirmedState]
      · exact (record_unpublished quiet recorded status confirmation [] key).2
      · exact fun other _ => record_unsettled quiet recorded status confirmation [] other
  | @travel moved events reached _ move desk stage =>
      exact .stays (by rw [underway_same stage move.job?]) (by rw [desk]) (by rw [desk])
        (move.unwritten key) fun job _ => move.unsettled job
  | report desk each =>
      exact .stays (by rw [underway_report each]) (by rw [desk]) (by rw [desk]) rfl
        fun job _ => ⟨List.not_mem_nil, List.not_mem_nil⟩
  | @commitLast job status _ arrived latest desk stage =>
      by_cases same : key = job.key
      · subst same
        refine .commitLast arrived latest ?_ ?_ ?_ ?_ ?_
        · simp [desk]
        · rw [stage, Function.update_self]
        · exact (commit_written lanes.desk job [] job.key).2.trans (if_pos rfl)
        · simp
        · intro other
          simp [(settleEvents_unsettled lanes.desk job (.ok ()) other).1]
      · refine .stays (underway_other stage same) ?_ ?_ ?_ ?_
        · simp [desk, FiniteMap.get?_erase_of_ne _ same]
        · simp [desk, FiniteMap.get?_insert_of_ne _ _ same]
        · exact (commit_written lanes.desk job [] key).2.trans (if_neg (Ne.symm same))
        · exact commit_unsettled lanes.desk job [] same
  | @commitNext job status id newJob _ arrived latest newer follows desk stage =>
      by_cases same : key = job.key
      · subst same
        rw [AlarmStateCoordinator.nextJob_eq (by simpa using latest),
          AlarmStateCoordinator.settle_contains newer, Option.some.injEq] at follows
        refine .commitNext arrived latest newer ?_ ?_ ?_ ?_ ?_ ?_ ?_
        · simpa [desk] using latest
        · simp [desk]
        · rw [stage, Function.update_self, follows]
        · exact (commit_written lanes.desk job [newJob] job.key).2.trans (if_pos rfl)
        · simp [follows]
        · simp
        · intro other
          simp [(settleEvents_unsettled lanes.desk job (.ok ()) other).1]
      · refine .stays (underway_other stage same) ?_ ?_ ?_ ?_
        · simp [desk]
        · simp [desk, FiniteMap.get?_insert_of_ne _ _ same]
        · exact (commit_written lanes.desk job [newJob] key).2.trans (if_neg (Ne.symm same))
        · exact commit_unsettled lanes.desk job [newJob] same
  | @rollBack job status newJob _ arrived latest user follows desk stage =>
      have unpublished := failure_unpublished lanes.desk job newJob key
      by_cases same : key = job.key
      · subst same
        have entry : ((lanes.desk.settle job).convergeToLastConfirmed job.key).speculativeState.get?
            job.key = some (lanes.desk.confirmedOrDefault job.key) := by
          simp [AlarmStateCoordinator.confirmedOrDefault]
        rw [AlarmStateCoordinator.nextJob_eq entry, Option.some.injEq] at follows
        refine .fails arrived latest (if_pos ⟨rfl, user⟩).symm ?_ ?_ ?_ ?_
          (failure_settles lanes.desk job newJob) unpublished.2
        · rw [desk]
          exact entry
        · simp [desk]
        · rw [stage, Function.update_self, ← follows]
          rfl
        · rw [← follows]
          exact List.mem_append_right _ (List.mem_cons_of_mem _ (List.mem_singleton_self _))
      · refine .stays (underway_other stage same) ?_ ?_ unpublished.2 ?_
        · simp [desk, FiniteMap.get?_insert_of_ne _ _ same]
        · simp [desk]
        · exact failure_unsettled lanes.desk job newJob same
  | @redispatch job status id newJob _ arrived latest keeps follows desk stage =>
      have unpublished := failure_unpublished lanes.desk job newJob key
      by_cases same : key = job.key
      · subst same
        rw [AlarmStateCoordinator.nextJob_eq (by simpa using latest), Option.some.injEq] at follows
        refine .fails arrived latest (if_neg keeps).symm ?_ ?_ ?_ ?_
          (failure_settles lanes.desk job newJob) unpublished.2
        · simpa [desk] using latest
        · simp [desk]
        · rw [stage, Function.update_self, ← follows]
        · simp [← follows]
      · refine .stays (underway_other stage same) ?_ ?_ unpublished.2 ?_
        · simp [desk]
        · simp [desk]
        · exact failure_unsettled lanes.desk job newJob same

/-- A step that records a status for the key, as the key sees it. -/
theorem Step.recorded {event : Event} (step : lanes.Step out next) (member : event ∈ out)
    (records : event.recordKey? = some key) :
    ∃ status confirmation, event = lanes.desk.recordEvent key status confirmation ∧
      next.desk = lanes.desk.record key status confirmation ∧
      ((lanes.stage key = .idle ∧ next.stage = Function.update lanes.stage key
          (.queued ⟨lanes.desk.idCounter, key, status,
            next.desk.pendingConfirmations.contains lanes.desk.idCounter⟩)) ∨
        (∃ job, lanes.underway key = some job) ∧ next.stage = lanes.stage) := by
  have settled : ∀ job answer, event ∉ lanes.desk.settleEvents job answer := by
    intro job answer inside
    rw [lanes.desk.resolve_unrecorded job answer event inside] at records
    cases records
  cases step with
  | still quiet =>
      rw [quiet_unrecorded quiet event member] at records
      cases records
  | @start started status confirmation before job _ decides quiet idle opens desk stage =>
      simp only [List.mem_append, List.mem_cons, List.not_mem_nil, or_false] at member
      rcases member with early | rfl | rfl
      · rw [quiet_unrecorded quiet event early] at records
        cases records
      · rw [AlarmStateCoordinator.recordEvent_recordKey?, Option.some.injEq] at records
        subst records
        refine ⟨status, confirmation, rfl, desk, .inl ⟨idle, ?_⟩⟩
        rw [AlarmStateCoordinator.nextJob_eq (FiniteMap.get?_insert_self _ _ _),
          Option.some.injEq] at opens
        rw [stage, ← opens, desk]
      · cases records
  | @displace recorded status confirmation before job _ decides quiet under desk stage =>
      rcases List.mem_append.mp member with early | late
      · rw [quiet_unrecorded quiet event early] at records
        cases records
      · obtain rfl := List.mem_singleton.mp late
        rw [AlarmStateCoordinator.recordEvent_recordKey?, Option.some.injEq] at records
        subst records
        exact ⟨status, confirmation, rfl, desk, .inr ⟨⟨job, under⟩, stage⟩⟩
  | travel move _ _ =>
      rw [move.unrecorded event member] at records
      cases records
  | report _ _ => exact absurd member List.not_mem_nil
  | commitLast _ _ _ _ =>
      simp only [List.mem_append, settled, List.mem_singleton, false_or] at member
      rw [member] at records
      cases records
  | commitNext _ _ _ _ _ _ | rollBack _ _ _ _ _ _ | redispatch _ _ _ _ _ _ =>
      simp only [List.mem_append, settled, List.mem_cons, List.not_mem_nil, or_false,
        false_or] at member
      rcases member with rfl | rfl <;> cases records

/-- What a step that records a status for the key does to the key. -/
structure Records (lanes : Lanes) (key : Key) (out : List Event) (next : Lanes) (status : Status)
    (confirmation : Option Confirmation) : Prop where
  reported : lanes.desk.recordEvent key status confirmation ∈ out
  desk : next.desk = lanes.desk.record key status confirmation
  lane : (lanes.stage key = .idle ∧ next.stage = Function.update lanes.stage key
      (.queued ⟨lanes.desk.idCounter, key, status,
        next.desk.pendingConfirmations.contains lanes.desk.idCounter⟩)) ∨
    (∃ job, lanes.underway key = some job) ∧ next.stage = lanes.stage

/-- To a key, a step records a status for it or reconciles its job or leaves it alone. -/
theorem Step.seen (step : lanes.Step out next) (key : Key) :
    (∃ status confirmation, lanes.Records key out next status confirmation) ∨
      (∀ event ∈ out, event.recordKey? ≠ some key) ∧ lanes.View key out next := by
  by_cases recorded : ∃ event ∈ out, event.recordKey? = some key
  · obtain ⟨event, member, records⟩ := recorded
    obtain ⟨status, confirmation, rfl, desk, lane⟩ := step.recorded member records
    exact .inl ⟨status, confirmation, member, desk, lane⟩
  · have unrecorded : ∀ event ∈ out, event.recordKey? ≠ some key :=
      fun event member records => recorded ⟨event, member, records⟩
    exact .inr ⟨unrecorded, step.view unrecorded⟩

/-- A step that reports the outcome of a job changes only its lane and answers only its
confirmation. -/
theorem Step.settles {job : Job} (step : lanes.Step out next)
    (reported : .failed job ∈ out ∨ .committed job ∈ out) :
    (∃ reached, next.stage = Function.update lanes.stage job.key reached) ∧ Unrecorded out ∧
      (∀ key, key ≠ job.key →
        next.desk.speculativeState.get? key = lanes.desk.speculativeState.get? key) ∧
      next.desk.pendingConfirmations = (lanes.desk.settle job).pendingConfirmations := by
  have unreported : ∀ {events : List Event}, .failed job ∉ events ∧ .committed job ∉ events →
      ¬ (.failed job ∈ events ∨ .committed job ∈ events) :=
    fun none either => either.elim none.1 none.2
  have answered : ∀ settled answer (rest : List Event),
      .failed job ∈ lanes.desk.settleEvents settled answer ++ rest ∨
        .committed job ∈ lanes.desk.settleEvents settled answer ++ rest →
      .failed job ∈ rest ∨ .committed job ∈ rest := by
    intro settled answer rest
    simp [settleEvents_unsettled lanes.desk settled answer job]
  cases step with
  | still quiet => exact absurd reported (unreported (quiet_unsettled quiet job))
  | @start started status confirmation before newJob _ decides quiet idle opens desk stage =>
      exact absurd reported
        (unreported (record_unsettled quiet started status confirmation [newJob] job))
  | @displace recorded status confirmation before _ _ decides quiet under desk stage =>
      exact absurd reported
        (unreported (record_unsettled quiet recorded status confirmation [] job))
  | travel move _ _ => exact absurd reported (unreported (move.unsettled job))
  | report _ _ => exact absurd reported (by simp)
  | @commitLast settled status _ arrived latest desk stage =>
      obtain rfl : job = settled := by simpa using answered _ _ _ reported
      refine ⟨⟨_, stage⟩, (lanes.desk.resolve_unrecorded job _).append (.cons rfl .nil), ?_, ?_⟩
      · intro key different
        simp [desk, FiniteMap.get?_erase_of_ne _ different]
      · rw [desk]
        rfl
  | @commitNext settled status id newJob _ arrived latest newer follows desk stage =>
      obtain rfl : job = settled := by simpa using answered _ _ _ reported
      refine ⟨⟨_, stage⟩,
        (lanes.desk.resolve_unrecorded job _).append (.cons rfl (.cons rfl .nil)), ?_, ?_⟩
      · intro key different
        simp [desk]
      · rw [desk]
        rfl
  | @rollBack settled status newJob _ arrived latest user follows desk stage =>
      obtain rfl : job = settled := by simpa using answered _ _ _ reported
      refine ⟨⟨_, stage⟩,
        (lanes.desk.resolve_unrecorded job _).append (.cons rfl (.cons rfl .nil)), ?_, ?_⟩
      · intro key different
        simp [desk, FiniteMap.get?_insert_of_ne _ _ different]
      · rw [desk]
        rfl
  | @redispatch settled status id newJob _ arrived latest keeps follows desk stage =>
      obtain rfl : job = settled := by simpa using answered _ _ _ reported
      refine ⟨⟨_, stage⟩,
        (lanes.desk.resolve_unrecorded job _).append (.cons rfl (.cons rfl .nil)), ?_, ?_⟩
      · intro key different
        simp [desk]
      · rw [desk]

/-- A job fails where it arrived, in a step that records nothing. -/
theorem Step.fails {job : Job} (step : lanes.Step out next) (member : .failed job ∈ out) :
    lanes.stage job.key = .settled job false ∧ Unrecorded out := by
  have reports : ∀ {settled newJob : Job},
      .failed job ∈ lanes.desk.settleEvents settled (.error (.internal settled.key)) ++
        [.failed settled, .dispatched newJob] →
      job = settled ∧ Unrecorded (lanes.desk.settleEvents settled (.error (.internal settled.key)) ++
        [.failed settled, .dispatched newJob]) := by
    intro settled newJob inside
    exact ⟨(failure_settles lanes.desk settled newJob job).mp inside,
      (lanes.desk.resolve_unrecorded settled _).append (.cons rfl (.cons rfl .nil))⟩
  cases step with
  | still quiet => exact absurd member (quiet_unsettled quiet job).1
  | @start started status confirmation before newJob _ decides quiet idle opens desk stage =>
      exact absurd member (record_unsettled quiet started status confirmation [newJob] job).1
  | @displace recorded status confirmation before _ _ decides quiet under desk stage =>
      exact absurd member (record_unsettled quiet recorded status confirmation [] job).1
  | travel move _ _ => exact absurd member (move.unsettled job).1
  | report _ _ => exact absurd member List.not_mem_nil
  | commitLast _ _ _ _ | commitNext _ _ _ _ _ _ =>
      simp [(settleEvents_unsettled lanes.desk _ (.ok ()) job).1] at member
  | rollBack arrived _ _ _ _ _ | redispatch arrived _ _ _ _ _ =>
      obtain ⟨rfl, unrecorded⟩ := reports member
      exact ⟨arrived, unrecorded⟩

/-- A job commits where it arrived. -/
theorem Step.commits {job : Job} (step : lanes.Step out next) (member : .committed job ∈ out) :
    lanes.stage job.key = .settled job true := by
  cases step with
  | still quiet => exact absurd member (quiet_unsettled quiet job).2
  | @start started status confirmation before newJob _ decides quiet idle opens desk stage =>
      exact absurd member (record_unsettled quiet started status confirmation [newJob] job).2
  | @displace recorded status confirmation before _ _ decides quiet under desk stage =>
      exact absurd member (record_unsettled quiet recorded status confirmation [] job).2
  | travel move _ _ => exact absurd member (move.unsettled job).2
  | report _ _ => exact absurd member List.not_mem_nil
  | @commitLast settled _ _ arrived _ _ _ | @commitNext settled _ _ _ _ arrived _ _ _ _ _ =>
      obtain rfl : job = settled := by
        simpa [(settleEvents_unsettled lanes.desk settled (.ok ()) job).2] using member
      exact arrived
  | @rollBack settled _ _ _ _ _ _ _ _ _ | @redispatch settled _ _ _ _ _ _ _ _ _ _ =>
      simp [(settleEvents_unsettled lanes.desk settled (.error (.internal settled.key)) job).2]
        at member

end Lanes

end AcornAlarms
