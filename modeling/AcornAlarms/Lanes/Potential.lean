import AcornAlarms.Lanes.Chronicle
import AcornAlarms.Lanes.Rollback
import AcornAlarms.Library.Tally

/-!
# The work left on a lane

A bound for the turns a job still needs, counting the timer its snooze command may set,
and for the job that will follow it: the newer intent, or the confirmed entry a user job
may be rolled back to. While publishes succeed and no lasting job is rejected, every step
uses some of it up.
-/

namespace AcornAlarms

open Library

variable [Platform]

/-- An event of no job and of no recorded status. -/
def Event.Mute : Event → Prop
  | .recorded _ _ _ | .admitted _ _ _ _ | .dispatched _ | .committed _ | .failed _
  | .answered _ _ _ | .published _ _ _ => False
  | _ => True

/-- A command with a wake time may set a timer, whose wake-up may start one more job. -/
def timerCost (wake : Option Timestamp) : Nat := if wake.isSome then 14 else 0

/-- What a job costs from its dispatch on. -/
def jobCost (status : Status) : Nat := 10 + timerCost status.wake

/-- What the rollback of a user job may cost. -/
def rollbackCost (userInitiated : Bool) : Nat := if userInitiated then 24 else 0

omit [Platform] in
theorem jobCost_le (status : Status) : jobCost status ≤ 24 := by
  unfold jobCost timerCost
  split <;> omega

namespace Stage

/-- What is left for the job of a stage. -/
def cost : Stage → Nat
  | idle => 0
  | queued job => jobCost job.status
  | snoozing job => 9 + timerCost job.status.wake
  | answered _ _ => 8
  | publishing _ => 7
  | attempting _ _ => 6
  | delivered _ _ => 2
  | settled _ _ => 1

/-- Whether the job of a stage has failed already. -/
def failing : Stage → Bool
  | answered _ accepted => !accepted
  | delivered _ ok | settled _ ok => !ok
  | _ => false

/-- What is left once the job of a stage is reconciled, by the latest intent. -/
def followCost (stage : Stage) (latest : Option (Status × Nat)) (owes : Nat → Bool) : Nat :=
  match stage.job?, latest with
  | some job, some (status, id) =>
      if id = job.id then
        if job.userInitiated then rollbackCost true
        else if stage.failing then jobCost status else 0
      else jobCost status + rollbackCost (owes id)
  | _, _ => 0

end Stage

namespace Lanes

/-- What is left on the lane of a key. -/
def potential (lanes : Lanes) (key : Key) : Nat :=
  (lanes.stage key).cost + (lanes.stage key).followCost (lanes.desk.speculativeState.get? key)
    lanes.desk.pendingConfirmations.contains

/-- The keys with a job under way. -/
def active (lanes : Lanes) : Finset Key := lanes.desk.speculativeState.keys.toFinset

/-- What is left on all lanes. -/
def work (lanes : Lanes) : Nat := ∑ key ∈ lanes.active, lanes.potential key

variable {lanes next : Lanes} {out : List Event} {key : Key}

theorem potential_idle (idle : lanes.stage key = .idle) : lanes.potential key = 0 := by
  rw [potential, idle]
  rfl

/-- Only active lanes have work left. -/
theorem potential_inactive (inactive : key ∉ lanes.active) : lanes.potential key = 0 := by
  apply potential_idle
  apply Stage.eq_idle_of_job?
  rw [active, List.mem_toFinset, FiniteMap.mem_keys_iff, lanes.busy key] at inactive
  exact Option.not_isSome_iff_eq_none.mp inactive

/-- One lane trades work, and no other lane has more than before. -/
theorem work_trade (key : Key) {paid owed : Nat}
    (here : next.potential key + paid ≤ lanes.potential key + owed)
    (others : ∀ other, other ≠ key → next.potential other ≤ lanes.potential other) :
    next.work + paid ≤ lanes.work + owed :=
  sum_trade key (fun _ => potential_inactive) (fun _ => potential_inactive) here others

/-- One lane pays, and no other lane has more than before. -/
theorem work_pays (key : Key) {paid : Nat} (here : next.potential key + paid ≤ lanes.potential key)
    (others : ∀ other, other ≠ key → next.potential other ≤ lanes.potential other) :
    next.work + paid ≤ lanes.work := by
  have traded : next.work + paid ≤ lanes.work + 0 := work_trade key here others
  exact traded

/-- No lane has more work than before. -/
theorem work_le (all : ∀ key, next.potential key ≤ lanes.potential key) :
    next.work ≤ lanes.work :=
  sum_le_of_support (fun _ => potential_inactive) (fun _ => potential_inactive) all

/-- One lane has less work than before, and no other has more. -/
theorem work_lt (key : Key) (here : next.potential key < lanes.potential key)
    (others : ∀ other, other ≠ key → next.potential other ≤ lanes.potential other) :
    next.work < lanes.work := by
  have paid : next.work + 1 ≤ lanes.work := work_pays key (Nat.succ_le_of_lt here) others
  exact paid

end Lanes

namespace Stage

variable {stage next : Stage} {out : List Event} {key : Key} {latest : Option (Status × Nat)}
  {owes owesLater : Nat → Bool}

theorem followCost_eq {job : Job} {status : Status} {id : Nat} (under : stage.job? = some job) :
    stage.followCost (some (status, id)) owes =
      if id = job.id then
        if job.userInitiated then rollbackCost true
        else if stage.failing then jobCost status else 0
      else jobCost status + rollbackCost (owes id) := by
  simp only [followCost, under]

/-- Fewer ids that owe a confirmation leave less to follow. -/
theorem followCost_mono (fewer : ∀ id, owesLater id = true → owes id = true) :
    stage.followCost latest owesLater ≤ stage.followCost latest owes := by
  cases under : stage.job? with
  | none => simp [followCost, under]
  | some job =>
      cases latest with
      | none => simp [followCost]
      | some entry =>
          rw [followCost_eq under, followCost_eq under]
          by_cases same : entry.2 = job.id
          · simp only [same, if_true]
            exact Nat.le_refl _
          · simp only [same, if_false]
            cases later : owesLater entry.2 with
            | false => simp [rollbackCost]
            | true => rw [fewer entry.2 later]

/-- A job that travels without an event uses some work up and leaves what follows. -/
theorem Move.silent (move : Stage.Move key stage out next) (mute : ∀ event ∈ out, event.Mute) :
    next.cost < stage.cost ∧ next.followCost latest owes = stage.followCost latest owes := by
  cases move with
  | receive => exact ⟨by simp only [cost, jobCost]; omega, rfl⟩
  | advance | reject | attempt => exact ⟨by simp [cost], rfl⟩
  | answer | retry _ | deliver _ => exact (mute _ (List.mem_singleton_self _)).elim

theorem Move.not_settled {job : Job} {ok : Bool} (move : Stage.Move key stage out next)
    (arrived : stage = .settled job ok) : False := by
  cases move <;> cases arrived

theorem Move.answers_key {other : Key} {wake : Option Timestamp} {accepted : Bool}
    (move : Stage.Move key stage out next) (member : .answered other wake accepted ∈ out) :
    other = key := by
  cases move with
  | answer =>
      rw [List.mem_singleton, Event.answered.injEq] at member
      exact member.1
  | receive | advance | reject | attempt => exact absurd member List.not_mem_nil
  | retry _ | deliver _ => simp at member

/-- A snooze command that is answered may set a timer. A rejection leaves more to follow
only when it fails an automated job that is the latest intent. -/
theorem Move.answers {other : Key} {wake : Option Timestamp} {accepted : Bool}
    (move : Stage.Move key stage out next) (member : .answered other wake accepted ∈ out)
    (lasting : accepted = true ∨ ∀ job status id, stage.job? = some job →
      latest = some (status, id) → id = job.id → job.userInitiated = true) :
    next.cost + (timerCost wake + 1) ≤ stage.cost ∧
      next.followCost latest owes = stage.followCost latest owes := by
  cases move with
  | @answer job verdict =>
      simp only [List.mem_singleton, Event.answered.injEq] at member
      obtain ⟨rfl, rfl, rfl⟩ := member
      refine ⟨by simp only [cost]; omega, ?_⟩
      rcases lasting with rfl | lasting
      · rfl
      · cases latest with
        | none => rfl
        | some entry =>
            obtain ⟨status, id⟩ := entry
            rw [followCost_eq rfl, followCost_eq rfl]
            by_cases same : id = job.id
            · rw [if_pos same, if_pos same, if_pos (lasting job status id rfl rfl same),
                if_pos (lasting job status id rfl rfl same)]
            · rw [if_neg same, if_neg same]
  | receive | advance | reject | attempt => exact absurd member List.not_mem_nil
  | retry _ | deliver _ => simp at member

end Stage

namespace Lanes

variable {lanes next : Lanes} {out : List Event} {key : Key}
  {hydratedStatuses : FiniteMap Key Status} {past : List Event}

/-- A lane that keeps its job and its latest intent, with no more ids owing. -/
theorem potential_kept (stage : next.stage key = lanes.stage key)
    (latest : next.desk.speculativeState.get? key = lanes.desk.speculativeState.get? key)
    (fewer : ∀ id, next.desk.pendingConfirmations.contains id = true →
      lanes.desk.pendingConfirmations.contains id = true) :
    next.potential key ≤ lanes.potential key := by
  rw [potential, potential, stage, latest]
  exact Nat.add_le_add_left (Stage.followCost_mono fewer) _

/-- A lane another lane's job leaves alone. -/
theorem potential_travel {moved : Key} {reached : Stage} (desk : next.desk = lanes.desk)
    (stage : next.stage = Function.update lanes.stage moved reached) (different : key ≠ moved) :
    next.potential key ≤ lanes.potential key :=
  potential_kept (by rw [stage, Function.update_of_ne different]) (by rw [desk])
    fun _ owes => by rwa [desk] at owes

/-- The lane of a job that travels pays what its stage pays. -/
theorem potential_moved {reached : Stage} {paid : Nat} (desk : next.desk = lanes.desk)
    (stage : next.stage = Function.update lanes.stage key reached)
    (pays : reached.cost + paid ≤ (lanes.stage key).cost)
    (follows : reached.followCost (lanes.desk.speculativeState.get? key)
        lanes.desk.pendingConfirmations.contains =
      (lanes.stage key).followCost (lanes.desk.speculativeState.get? key)
        lanes.desk.pendingConfirmations.contains) :
    next.potential key + paid ≤ lanes.potential key := by
  rw [potential, potential, stage, Function.update_self, desk, follows]
  omega

/-- A mute step uses up some work on every lane it changes. -/
theorem Step.silent (step : lanes.Step out next) (mute : ∀ event ∈ out, event.Mute) (key : Key) :
    next.potential key ≤ lanes.potential key ∧
      (next.stage key ≠ lanes.stage key → next.potential key < lanes.potential key) := by
  cases step with
  | still _ => exact ⟨Nat.le_refl _, fun changed => absurd rfl changed⟩
  | @start started status confirmation _ job _ _ _ _ _ _ _ =>
      exact (mute (.dispatched job) (by simp)).elim
  | @displace recorded status confirmation _ _ _ _ _ _ _ _ =>
      have loud := mute (lanes.desk.recordEvent recorded status confirmation) (by simp)
      cases confirmation <;> exact loud.elim
  | @commitLast job _ _ _ _ _ _ | @commitNext job _ _ _ _ _ _ _ _ _ _ =>
      exact (mute (.committed job) (by simp)).elim
  | @rollBack job _ _ _ _ _ _ _ _ _ | @redispatch job _ _ _ _ _ _ _ _ _ _ =>
      exact (mute (.failed job) (by simp)).elim
  | @travel moved events reached _ move desk stage =>
      by_cases same : key = moved
      · subst same
        obtain ⟨less, follows⟩ := move.silent mute
        have lower : next.potential key + 1 ≤ lanes.potential key :=
          potential_moved desk stage (Nat.succ_le_of_lt less) follows
        exact ⟨Nat.le_of_succ_le lower, fun _ => lower⟩
      · refine ⟨potential_travel desk stage same, fun changed => absurd ?_ changed⟩
        rw [stage, Function.update_of_ne same]
  | report desk each =>
      rcases each key with kept | ⟨job, ok, arrived, reached⟩
      · exact ⟨potential_kept kept (by rw [desk]) fun _ owes => by rwa [desk] at owes,
          fun changed => absurd kept changed⟩
      · have lower : next.potential key < lanes.potential key := by
          rw [potential, potential, arrived, reached, desk]
          show 1 + _ < 2 + _
          exact Nat.add_lt_add_right (by omega) _
        exact ⟨lower.le, fun _ => lower⟩

/-- A mute step leaves no more work. -/
theorem Step.work_le_of_mute (step : lanes.Step out next) (mute : ∀ event ∈ out, event.Mute) :
    next.work ≤ lanes.work :=
  work_le fun key => (step.silent mute key).1

/-- A mute step that changes a lane leaves less work. -/
theorem Step.work_lt_of_mute (step : lanes.Step out next) (mute : ∀ event ∈ out, event.Mute)
    (changed : next.stage key ≠ lanes.stage key) : next.work < lanes.work :=
  work_lt key ((step.silent mute key).2 changed) fun other _ => (step.silent mute other).1

/-- The job under way is a user job or not the latest intent of its key, so that its failure
is followed by another job. -/
def Yields (lanes : Lanes) (key : Key) : Prop :=
  ∀ job status id, (lanes.stage key).job? = some job →
    lanes.desk.speculativeState.get? key = some (status, id) → id = job.id →
    job.userInitiated = true

/-- An answered snooze command pays for the timer it may have set. -/
theorem Step.answers {wake : Option Timestamp} {accepted : Bool} (step : lanes.Step out next)
    (member : .answered key wake accepted ∈ out) (lasting : accepted = true ∨ lanes.Yields key) :
    next.work + (timerCost wake + 1) ≤ lanes.work := by
  obtain ⟨moved, reached, move, desk, stage⟩ := step.travels member trivial
  have same : key = moved := move.answers_key member
  subst same
  obtain ⟨pays, follows⟩ := move.answers member (lasting.imp_right fun yields => yields)
  exact work_pays key (potential_moved desk stage pays follows)
    fun other different => potential_travel desk stage different

/-- A published status pays for the result the engine reports. -/
theorem Step.publishes {status : Status} (step : lanes.Step out next)
    (member : .published key status true ∈ out) : next.work + 4 ≤ lanes.work := by
  obtain ⟨job, number, attempting, _, _, desk, stage⟩ := step.delivers member
  have pays : next.potential key + 4 ≤ lanes.potential key :=
    potential_moved desk stage (by rw [attempting]; exact Nat.le_refl _) (by rw [attempting]; rfl)
  exact work_pays key pays fun other different => potential_travel desk stage different

/-- A lane whose latest intent was just dispatched. -/
theorem potential_queued {status : Status} {id : Nat} {userInitiated : Bool}
    (stage : next.stage key = .queued ⟨id, key, status, userInitiated⟩)
    (latest : next.desk.speculativeState.get? key = some (status, id)) :
    next.potential key = jobCost status + rollbackCost userInitiated := by
  rw [potential, stage, latest, Stage.followCost_eq rfl, if_pos rfl]
  cases userInitiated <;> rfl

/-- A lane whose job is settled and the latest intent of its key. -/
theorem potential_last {job : Job} {ok : Bool} {status : Status}
    (stage : lanes.stage key = .settled job ok)
    (latest : lanes.desk.speculativeState.get? key = some (status, job.id)) :
    lanes.potential key = 1 + if job.userInitiated then rollbackCost true
      else if !ok then jobCost status else 0 := by
  rw [potential, stage, latest, Stage.followCost_eq rfl, if_pos rfl]
  rfl

/-- A lane whose job is settled while a newer intent waits. -/
theorem potential_next {job : Job} {ok : Bool} {status : Status} {id : Nat}
    (stage : lanes.stage key = .settled job ok)
    (latest : lanes.desk.speculativeState.get? key = some (status, id)) (newer : id ≠ job.id) :
    lanes.potential key =
      1 + (jobCost status + rollbackCost (lanes.desk.pendingConfirmations.contains id)) := by
  rw [potential, stage, latest, Stage.followCost_eq rfl, if_neg newer]
  rfl

/-- A recorded status without wake time and confirmation costs one job. -/
theorem Step.records {status : Status} (step : lanes.Step out next)
    (ledger : Ledger hydratedStatuses past lanes.desk lanes.underway)
    (member : .recorded lanes.desk.idCounter key status ∈ out) (wakeless : status.wake = none) :
    next.work ≤ lanes.work + 10 := by
  obtain ⟨recorded, given, same, desk, stage⟩ := step.recorded member rfl
  have automated : given = none ∧ recorded = status := by
    cases given with
    | none => exact ⟨rfl, (Event.recorded.inj same).2.2.symm⟩
    | some confirmation => cases same
  obtain ⟨rfl, rfl⟩ := automated
  have pending : next.desk.pendingConfirmations = lanes.desk.pendingConfirmations := by
    rw [desk]
    rfl
  have settled : next.desk.pendingConfirmations.contains lanes.desk.idCounter = false := by
    rw [pending, FiniteMap.contains, Option.isSome_eq_false_iff, Option.isNone_iff_eq_none]
    by_contra present
    obtain ⟨confirmation, found⟩ := Option.ne_none_iff_exists'.mp present
    obtain ⟨other, otherStatus, issued⟩ := ledger.pending_issued found
    exact absurd (ledger.fresh issued).2 (Nat.lt_irrefl _)
  have latest : next.desk.speculativeState.get? key = some (recorded, lanes.desk.idCounter) := by
    rw [desk, AlarmStateCoordinator.record_speculativeState, FiniteMap.get?_insert_self]
  have price : jobCost recorded + rollbackCost false = 10 := by
    rw [jobCost, wakeless]
    rfl
  have others : ∀ other, other ≠ key → next.potential other ≤ lanes.potential other := by
    intro other different
    apply potential_kept
    · rcases stage with ⟨_, queued⟩ | ⟨_, kept⟩
      · rw [queued, Function.update_of_ne different]
      · rw [kept]
    · rw [desk, AlarmStateCoordinator.record_speculativeState,
        FiniteMap.get?_insert_of_ne _ _ different]
    · exact fun id owes => by rwa [pending] at owes
  suffices paid : next.potential key + 0 ≤ lanes.potential key + 10 from
    work_trade key paid others
  rcases stage with ⟨_, queued⟩ | ⟨⟨job, under⟩, kept⟩
  · rw [potential_queued (by rw [queued, Function.update_self]) latest, settled, price]
    omega
  · have newer : lanes.desk.idCounter ≠ job.id :=
      (Nat.ne_of_lt (ledger.below (ledger.job under).2)).symm
    rw [potential, potential, kept, latest, Stage.followCost_eq under, if_neg newer, settled, price]
    omega

/-- Answering a confirmation makes no id owe. -/
theorem settle_fewer {desk : AlarmStateCoordinator} {job : Job} {id : Nat}
    (owes : (desk.settle job).pendingConfirmations.contains id = true) :
    desk.pendingConfirmations.contains id = true := by
  rw [FiniteMap.contains, AlarmStateCoordinator.settle_pending] at owes
  split at owes
  · cases owes
  · exact owes

/-- A job that is reconciled leaves less work on its lane. -/
theorem View.reconciles (view : lanes.View key out next) {job : Job} (named : job.key = key)
    (ledger : Ledger hydratedStatuses past lanes.desk lanes.underway)
    (reported : .failed job ∈ out ∨ .committed job ∈ out) :
    next.potential key < lanes.potential key := by
  cases view with
  | stays _ _ _ _ unsettled =>
      obtain ⟨unfailed, uncommitted⟩ := unsettled job named
      exact (reported.elim unfailed uncommitted).elim
  | commitLast arrived latest confirmed stage _ _ _ =>
      rw [potential_idle stage, potential_last arrived latest]
      omega
  | commitNext arrived latest newer kept confirmed stage _ _ _ _ =>
      rw [potential_queued stage kept, potential_next arrived latest newer]
      omega
  | @fails settled status id entry arrived latest chosen kept confirmed stage _ _ _ =>
      rw [potential_queued stage kept]
      by_cases last : id = settled.id
      · subst last
        rw [potential_last arrived latest]
        by_cases user : settled.userInitiated = true
        · rw [if_pos ⟨rfl, user⟩] at chosen
          rw [chosen, settle_owes_nothing (.inr (ledger.base_settled key)), if_pos user]
          have bound := jobCost_le (lanes.desk.confirmedOrDefault key).1
          have rollback : rollbackCost true = 24 ∧ rollbackCost false = 0 := ⟨rfl, rfl⟩
          omega
        · rw [if_neg fun both => user both.2] at chosen
          rw [chosen, settle_owes_nothing (.inl rfl), if_neg user]
          simp [rollbackCost]
      · rw [if_neg fun both => last both.1] at chosen
        rw [chosen, AlarmStateCoordinator.settle_contains last, potential_next arrived latest last]
        exact Nat.lt_add_of_pos_left Nat.one_pos

/-- A reconciled job leaves less work. -/
theorem Step.reconciles {job : Job} (step : lanes.Step out next)
    (ledger : Ledger hydratedStatuses past lanes.desk lanes.underway)
    (reported : .failed job ∈ out ∨ .committed job ∈ out) : next.work < lanes.work := by
  obtain ⟨⟨reached, stage⟩, unrecorded, latest, pending⟩ := step.settles reported
  have view : lanes.View job.key out next := step.view fun event member recorded => by
    rw [unrecorded event member] at recorded
    cases recorded
  refine work_lt job.key (view.reconciles rfl ledger reported) fun other different => ?_
  refine potential_kept ?_ (latest other different) fun id owes => ?_
  · rw [stage, Function.update_of_ne different]
  · rw [pending] at owes
    exact settle_fewer owes

/-- A settled job leaves its lane by being reconciled. -/
theorem Step.unsettles {job : Job} {ok : Bool} (step : lanes.Step out next)
    (arrived : lanes.stage key = .settled job ok) (changed : next.stage key ≠ lanes.stage key) :
    .failed job ∈ out ∨ .committed job ∈ out := by
  have other : ∀ {moved : Key} {reached : Stage},
      next.stage = Function.update lanes.stage moved reached → key = moved := by
    intro moved reached stage
    by_contra different
    exact changed (by rw [stage, Function.update_of_ne different])
  cases step with
  | still _ => exact absurd rfl changed
  | start _ _ idle _ _ stage =>
      obtain rfl := other stage
      rw [idle] at arrived
      cases arrived
  | displace _ _ _ _ stage => exact absurd (by rw [stage]) changed
  | travel move _ stage =>
      obtain rfl := other stage
      exact (move.not_settled arrived).elim
  | report _ each =>
      rcases each key with kept | ⟨_, _, delivered, _⟩
      · exact absurd kept changed
      · rw [delivered] at arrived
        cases arrived
  | commitLast settled _ _ stage | commitNext settled _ _ _ _ stage =>
      obtain rfl := other stage
      rw [settled] at arrived
      cases arrived
      exact .inr (by simp)
  | rollBack settled _ _ _ _ stage | redispatch settled _ _ _ _ stage =>
      obtain rfl := other stage
      rw [settled] at arrived
      cases arrived
      exact .inl (by simp)

end Lanes

end AcornAlarms
