import AcornAlarms.Lanes.Chronicle
import AcornAlarms.Lanes.Decisions

/-!
# Answers are truthful

A confirmation is answered `Ok` only after the snooze command of its job was accepted
and its status published, and `Internal` only if no publish of its job ever succeeds.
Snooze replies and publish results carry a key and no id; that they are about the job
in question rests on one job per key and on ids that are never used again.
-/

namespace AcornAlarms

open Library

section

variable [Platform]

theorem AlarmStateCoordinator.nextJob_latest {self : AlarmStateCoordinator} {key : Key}
    {job : Job} (next : self.nextJob key = some job) :
    self.speculativeState.get? key = some (job.status, job.id) := by
  obtain ⟨entry, found, rfl⟩ := Option.map_eq_some_iff.mp next
  exact found

/-- An allocated id that nothing refers to any more. -/
structure Retired (desk : AlarmStateCoordinator) (underway : Key → Option Job) (id : Nat) :
    Prop where
  positive : 0 < id
  below : id < desk.idCounter
  latest : ∀ key status, desk.speculativeState.get? key ≠ some (status, id)
  confirmed : ∀ key status, desk.confirmedState.get? key ≠ some (status, id)
  underway : ∀ key job, underway key = some job → job.id ≠ id

theorem Stage.Move.not_dispatched {key : Key} {stage next : Stage} {events : List Event} {job : Job}
    (move : Stage.Move key stage events next) : .dispatched job ∉ events := by
  cases move <;> simp

namespace Retired

variable {desk : AlarmStateCoordinator} {underway : Key → Option Job} {id : Nat}

theorem record (retired : Retired desk underway id) (key : Key) (status : Status)
    (confirmation : Option Confirmation) :
    Retired (desk.record key status confirmation) underway id :=
  { retired with
    below := Nat.lt_succ_of_lt retired.below
    latest := by
      intro other otherStatus found
      rw [AlarmStateCoordinator.record_speculativeState, FiniteMap.get?_insert] at found
      split at found
      · obtain ⟨_, rfl⟩ := Prod.mk.inj (Option.some.inj found)
        exact absurd retired.below (Nat.lt_irrefl _)
      · exact retired.latest other otherStatus found }

theorem settle (retired : Retired desk underway id) (job : Job) :
    Retired (desk.settle job) underway id where
  positive := retired.positive
  below := by
    rw [AlarmStateCoordinator.settle_idCounter]
    exact retired.below
  latest := by
    rw [AlarmStateCoordinator.settle_speculativeState]
    exact retired.latest
  confirmed := by
    rw [AlarmStateCoordinator.settle_confirmedState]
    exact retired.confirmed
  underway := retired.underway

theorem confirm (retired : Retired desk underway id) {job : Job}
    (under : underway job.key = some job) : Retired (desk.confirm job) underway id :=
  { retired with
    confirmed := by
      intro key status found
      rw [AlarmStateCoordinator.confirm_confirmedState, FiniteMap.get?_insert] at found
      split at found
      · obtain ⟨_, same⟩ := Prod.mk.inj (Option.some.inj found)
        exact retired.underway job.key job under same
      · exact retired.confirmed key status found }

theorem clear (retired : Retired desk underway id) (key : Key) :
    Retired (desk.clear key) underway id :=
  { retired with
    latest := by
      intro other status found
      rw [AlarmStateCoordinator.clear_speculativeState, FiniteMap.get?_erase] at found
      split at found
      · cases found
      · exact retired.latest other status found }

theorem converge (retired : Retired desk underway id) (key : Key) :
    Retired (desk.convergeToLastConfirmed key) underway id :=
  { retired with
    latest := by
      intro other status found
      rw [AlarmStateCoordinator.converge_speculativeState, FiniteMap.get?_insert] at found
      split at found
      · cases entry : desk.confirmedState.get? key with
        | none =>
            simp only [AlarmStateCoordinator.confirmedOrDefault, entry, Option.getD_none,
              Option.some.injEq, Prod.mk.injEq] at found
            have positive := retired.positive
            simp [← found.2, defaultHydratedId] at positive
        | some confirmed =>
            simp only [AlarmStateCoordinator.confirmedOrDefault, entry, Option.getD_some,
              Option.some.injEq] at found
            exact retired.confirmed key status (found ▸ entry)
      · exact retired.latest other status found }

theorem close (retired : Retired desk underway id) (key : Key) :
    Retired desk (Function.update underway key none) id :=
  { retired with
    underway := by
      intro other job found
      rw [Function.update_apply] at found
      split at found
      · cases found
      · exact retired.underway other job found }

theorem dispatch (retired : Retired desk underway id) {key : Key} {job : Job}
    (next : desk.nextJob key = some job) :
    Retired desk (Function.update underway key (some job)) id :=
  { retired with
    underway := by
      intro other found present
      rw [Function.update_apply] at present
      split at present
      · obtain rfl := Option.some.inj present
        rintro rfl
        exact retired.latest key _ (AlarmStateCoordinator.nextJob_latest next)
      · exact retired.underway other found present }

end Retired

namespace Lanes

variable {hydratedStatuses : FiniteMap Key Status} {lanes next : Lanes} {past out : List Event}
  {id : Nat}

/-- A retired id stays retired. -/
theorem Step.retired (step : lanes.Step out next) (retired : Retired lanes.desk lanes.underway id) :
    Retired next.desk next.underway id := by
  cases step with
  | still quiet => exact retired
  | @start key status confirmation before job _ decides quiet idle opens desk stage =>
      rw [desk, underway_update stage]
      exact (retired.record key status confirmation).dispatch opens
  | @displace key status confirmation before _ _ decides quiet under desk stage =>
      have same : next.underway = lanes.underway := by
        funext other
        rw [underway, underway, stage]
      rw [desk, same]
      exact retired.record key status confirmation
  | travel move desk stage =>
      rw [desk, underway_same stage move.job?]
      exact retired
  | report desk each =>
      rw [desk, underway_report each]
      exact retired
  | @commitLast job status _ arrived latest desk stage =>
      rw [desk, underway_update stage]
      exact (((retired.settle job).clear job.key).confirm (underway_settled arrived)).close job.key
  | @commitNext job status id newJob _ arrived latest newer follows desk stage =>
      have settled := (retired.settle job).confirm (underway_settled arrived)
      rw [desk, underway_update stage]
      exact settled.dispatch follows
  | @rollBack job status newJob _ arrived latest user follows desk stage =>
      rw [desk, underway_update stage]
      exact ((retired.settle job).converge job.key).dispatch follows
  | @redispatch job status id newJob _ arrived latest keeps follows desk stage =>
      rw [desk, underway_update stage]
      exact (retired.settle job).dispatch follows

/-- The id of a failed job that owed a confirmation is retired. -/
theorem retired_of_failed {job newJob : Job} {confirmation : Confirmation} {ok : Bool}
    (ledger : Ledger hydratedStatuses past lanes.desk lanes.underway)
    (arrived : lanes.stage job.key = .settled job ok)
    (owed : lanes.desk.pendingConfirmations.get? job.id = some confirmation)
    (stage : next.stage = Function.update lanes.stage job.key (.queued newJob))
    (counter : next.desk.idCounter = lanes.desk.idCounter)
    (confirmed : next.desk.confirmedState = lanes.desk.confirmedState)
    (others : ∀ key, key ≠ job.key →
      next.desk.speculativeState.get? key = lanes.desk.speculativeState.get? key)
    (here : next.desk.nextJob job.key = some newJob) (different : newJob.id ≠ job.id) :
    Retired next.desk next.underway job.id := by
  have known := (ledger.job (underway_settled arrived)).2
  obtain ⟨key, status, issued⟩ := ledger.pending_issued owed
  -- An id that owes a confirmation is known to one key only.
  have alone : ∀ {key status}, Known hydratedStatuses past job.id key status → key = job.key := by
    intro key status other
    by_contra apart
    rw [ledger.apart known other apart] at owed
    cases owed
  refine ⟨(ledger.fresh issued).1, ?_, ?_, ?_, ?_⟩
  · rw [counter]
    exact (ledger.fresh issued).2
  · intro key status found
    rcases eq_or_ne key job.key with rfl | apart
    · rw [AlarmStateCoordinator.nextJob_latest here] at found
      exact different (Prod.mk.inj (Option.some.inj found)).2
    · rw [others key apart] at found
      exact apart (alone (ledger.latest found))
  · intro key status found
    rw [confirmed] at found
    rw [ledger.settled found] at owed
    cases owed
  · intro key other found
    rw [underway_update stage, Function.update_apply] at found
    split at found
    · obtain rfl := Option.some.inj found
      exact different
    · next apart =>
        intro same
        have otherKnown := (ledger.job found).2
        rw [same] at otherKnown
        exact apart (alone otherKnown)

/-- An answer comes from the job that settled. -/
theorem mem_settleEvents {desk : AlarmStateCoordinator} {job : Job} {key : Key}
    {confirmation : Confirmation} {given answer : Except UpdateError Unit}
    (member : .resolved id key confirmation answer ∈ desk.settleEvents job given) :
    id = job.id ∧ key = job.key ∧ answer = given ∧
      desk.pendingConfirmations.get? job.id = some confirmation := by
  unfold AlarmStateCoordinator.settleEvents AlarmStateCoordinator.resolve at member
  split at member
  · next owed =>
      simp only [List.mem_singleton, Event.resolved.injEq] at member
      obtain ⟨rfl, rfl, rfl, rfl⟩ := member
      exact ⟨rfl, rfl, rfl, owed⟩
  · exact absurd member List.not_mem_nil

/-- A confirmation is answered when its job settles. A job that failed leaves its id
retired. -/
theorem Step.resolves {key : Key} {confirmation : Confirmation}
    {answer : Except UpdateError Unit} (step : lanes.Step out next)
    (ledger : Ledger hydratedStatuses past lanes.desk lanes.underway)
    (member : .resolved id key confirmation answer ∈ out) :
    ∃ job ok, lanes.stage key = .settled job ok ∧ job.id = id ∧ job.key = key ∧
      lanes.desk.pendingConfirmations.get? id = some confirmation ∧
      (ok = true ∧ answer = .ok () ∨
        ok = false ∧ answer = .error (.internal key) ∧ Retired next.desk next.underway id) := by
  have still : ∀ {before : List Event}, (∀ event ∈ before, event.Quiet lanes.desk) →
      .resolved id key confirmation answer ∉ before := fun quiet inside => (quiet _ inside).elim
  cases step with
  | still quiet => exact absurd member (still quiet)
  | @start _ _ given _ _ _ _ quiet _ _ _ _ =>
      have early := still quiet
      cases given <;> simp [early, AlarmStateCoordinator.recordEvent] at member
  | @displace _ _ given _ _ _ _ quiet _ _ _ =>
      have early := still quiet
      cases given <;> simp [early, AlarmStateCoordinator.recordEvent] at member
  | @travel moved events reached _ move desk stage =>
      have silent : ∀ {stage reached}, Stage.Move moved stage out reached →
          .resolved id key confirmation answer ∉ out := by
        intro stage reached move inside
        cases move <;> simp at inside
      exact absurd member (silent move)
  | report _ _ => exact absurd member List.not_mem_nil
  | @commitLast job status _ arrived latest desk stage =>
      simp only [List.mem_append, List.mem_singleton, reduceCtorEq, or_false] at member
      obtain ⟨rfl, rfl, rfl, owed⟩ := mem_settleEvents member
      exact ⟨job, true, arrived, rfl, rfl, owed, .inl ⟨rfl, rfl⟩⟩
  | @commitNext job status _ newJob _ arrived latest newer follows desk stage =>
      simp only [List.mem_append, List.mem_cons, List.not_mem_nil, reduceCtorEq, or_false] at member
      obtain ⟨rfl, rfl, rfl, owed⟩ := mem_settleEvents member
      exact ⟨job, true, arrived, rfl, rfl, owed, .inl ⟨rfl, rfl⟩⟩
  | @rollBack job status newJob _ arrived latest user follows desk stage =>
      simp only [List.mem_append, List.mem_cons, List.not_mem_nil, reduceCtorEq, or_false] at member
      obtain ⟨rfl, rfl, rfl, owed⟩ := mem_settleEvents member
      refine ⟨job, false, arrived, rfl, rfl, owed, .inr ⟨rfl, rfl, ?_⟩⟩
      rw [← desk] at follows
      refine retired_of_failed ledger arrived owed stage (by simp [desk]) (by simp [desk]) ?_
        follows ?_
      · intro other apart
        simp [desk, FiniteMap.get?_insert_of_ne _ _ apart]
      · -- The confirmed entry owes nothing, so the job put in its place has another id.
        intro same
        have restored := AlarmStateCoordinator.nextJob_latest follows
        rw [desk, AlarmStateCoordinator.converge_speculativeState, FiniteMap.get?_insert_self,
          same] at restored
        cases entry : lanes.desk.confirmedState.get? job.key with
        | none =>
            simp only [AlarmStateCoordinator.confirmedOrDefault,
              AlarmStateCoordinator.settle_confirmedState, entry, Option.getD_none,
              Option.some.injEq, Prod.mk.injEq] at restored
            rw [← restored.2, ledger.reserved] at owed
            cases owed
        | some confirmed =>
            simp only [AlarmStateCoordinator.confirmedOrDefault,
              AlarmStateCoordinator.settle_confirmedState, entry, Option.getD_some,
              Option.some.injEq] at restored
            rw [restored] at entry
            rw [ledger.settled entry] at owed
            cases owed
  | @redispatch job status _ newJob _ arrived latest keeps follows desk stage =>
      simp only [List.mem_append, List.mem_cons, List.not_mem_nil, reduceCtorEq, or_false] at member
      obtain ⟨rfl, rfl, rfl, owed⟩ := mem_settleEvents member
      refine ⟨job, false, arrived, rfl, rfl, owed, .inr ⟨rfl, rfl, ?_⟩⟩
      rw [← desk] at follows
      refine retired_of_failed ledger arrived owed stage (by simp [desk]) (by simp [desk])
        (by simp [desk]) follows ?_
      intro same
      have restored := AlarmStateCoordinator.nextJob_latest follows
      rw [desk, AlarmStateCoordinator.settle_speculativeState, latest, same] at restored
      have userInitiated := ledger.owes (underway_settled arrived)
      rw [FiniteMap.contains, owed] at userInitiated
      exact keeps ⟨(Prod.mk.inj (Option.some.inj restored)).2, userInitiated⟩

/-- A user status is built for an admitted user update. -/
theorem Step.built {key : Key} {status : Status} {confirmation : Confirmation}
    (step : lanes.Step out next) (member : .admitted id key status confirmation ∈ out) :
    ∃ action user now, status = buildUserStatus key action user now := by
  have still : ∀ {before : List Event}, (∀ event ∈ before, event.Quiet lanes.desk) →
      .admitted id key status confirmation ∉ before := fun quiet inside => (quiet _ inside).elim
  have resolved : ∀ job answer,
      .admitted id key status confirmation ∉ lanes.desk.settleEvents job answer := by
    intro job answer inside
    have none := lanes.desk.resolve_unrecorded job answer _ inside
    cases none
  cases step with
  | still quiet => exact absurd member (still quiet)
  | @start _ _ given _ _ _ decides quiet _ _ _ _ =>
      have early := still quiet
      cases decides with
      | automated _ _ => simp [early, AlarmStateCoordinator.recordEvent] at member
      | @user action user now given allowed =>
          simp only [AlarmStateCoordinator.recordEvent, List.mem_append, early, List.mem_cons,
            Event.admitted.injEq, List.not_mem_nil, reduceCtorEq, or_false, false_or] at member
          obtain ⟨_, rfl, rfl, _⟩ := member
          exact ⟨action, user, now, rfl⟩
  | @displace _ _ given _ _ _ decides quiet _ _ _ =>
      have early := still quiet
      cases decides with
      | automated _ _ => simp [early, AlarmStateCoordinator.recordEvent] at member
      | @user action user now given allowed =>
          simp only [AlarmStateCoordinator.recordEvent, List.mem_append, early, List.mem_singleton,
            Event.admitted.injEq, false_or] at member
          obtain ⟨_, rfl, rfl, _⟩ := member
          exact ⟨action, user, now, rfl⟩
  | travel move _ _ => cases move.unrecorded _ member
  | report _ _ => exact absurd member List.not_mem_nil
  | commitLast _ _ _ _ | commitNext _ _ _ _ _ _ | rollBack _ _ _ _ _ _
  | redispatch _ _ _ _ _ _ => simp [resolved] at member

/-- An id that owes nothing never owes again. -/
theorem Step.owes_nothing (step : lanes.Step out next) (below : id < lanes.desk.idCounter)
    (nothing : lanes.desk.pendingConfirmations.get? id = none) :
    next.desk.pendingConfirmations.get? id = none := by
  have settled : ∀ job, (lanes.desk.settle job).pendingConfirmations.get? id = none := by
    intro job
    rw [AlarmStateCoordinator.settle_pending, nothing, ite_self]
  cases step with
  | still _ => exact nothing
  | start _ _ _ _ desk _ | displace _ _ _ desk _ =>
      rw [desk, AlarmStateCoordinator.record_pending, if_neg (by omega)]
      exact nothing
  | travel _ desk _ | report desk _ =>
      rw [desk]
      exact nothing
  | commitLast _ _ desk _ | commitNext _ _ _ _ desk _ | rollBack _ _ _ _ desk _
  | redispatch _ _ _ _ desk _ =>
      rw [desk]
      exact settled _

theorem Step.counter_le (step : lanes.Step out next) :
    lanes.desk.idCounter ≤ next.desk.idCounter := by
  cases step with
  | still _ => exact Nat.le_refl _
  | start _ _ _ _ desk _ | displace _ _ _ desk _ =>
      rw [desk, AlarmStateCoordinator.record_idCounter]
      exact Nat.le_succ _
  | travel _ desk _ | report desk _ => rw [desk]
  | commitLast _ _ desk _ | commitNext _ _ _ _ desk _ | rollBack _ _ _ _ desk _
  | redispatch _ _ _ _ desk _ =>
      rw [desk]
      simp

/-- A job whose status was published stays where it is or stops owing a confirmation. -/
theorem Step.published {key : Key} {job : Job} (step : lanes.Step out next)
    (under : lanes.underway key = some job) (published : (lanes.stage key).published = true) :
    next.desk.pendingConfirmations.get? job.id = none ∨
      (next.underway key = some job ∧ (next.stage key).published = true) := by
  -- A settled job is this job, or the lane is another one.
  have settled : ∀ {other ok reached}, lanes.stage other.key = .settled other ok →
      next.desk.pendingConfirmations = (lanes.desk.settle other).pendingConfirmations →
      next.stage = Function.update lanes.stage other.key reached →
      next.desk.pendingConfirmations.get? job.id = none ∨
        (next.underway key = some job ∧ (next.stage key).published = true) := by
    intro other ok reached arrived pending stage
    rcases eq_or_ne key other.key with rfl | apart
    · rw [underway_settled arrived] at under
      obtain rfl := Option.some.inj under
      exact .inl (by rw [pending]; exact lanes.desk.settle_answered other)
    · rw [underway, stage, Function.update_of_ne apart]
      exact .inr ⟨under, published⟩
  cases step with
  | still _ => exact .inr ⟨under, published⟩
  | @start started _ _ _ _ _ _ _ idle _ _ stage =>
      have apart : key ≠ started := by
        rintro rfl
        rw [idle] at published
        cases published
      rw [underway, stage, Function.update_of_ne apart]
      exact .inr ⟨under, published⟩
  | displace _ _ _ _ stage =>
      rw [underway, stage]
      exact .inr ⟨under, published⟩
  | @travel moved _ _ _ move _ stage =>
      have apart : key ≠ moved := by
        rintro rfl
        have unpublished : ∀ {stage reached}, Stage.Move key stage out reached →
            stage.published = false := by
          intro stage reached move
          cases move <;> rfl
        rw [unpublished move] at published
        cases published
      rw [underway, stage, Function.update_of_ne apart]
      exact .inr ⟨under, published⟩
  | report desk each =>
      rw [underway_report each]
      refine .inr ⟨under, ?_⟩
      rcases each key with kept | ⟨_, ok, arrived, reached⟩
      · rw [kept]
        exact published
      · rw [arrived] at published
        rw [reached]
        exact published
  | commitLast arrived _ desk stage => exact settled arrived (by rw [desk]; rfl) stage
  | commitNext arrived _ _ _ desk stage => exact settled arrived (by rw [desk]; rfl) stage
  | rollBack arrived _ _ _ desk stage => exact settled arrived (by rw [desk]; rfl) stage
  | redispatch arrived _ _ _ desk stage => exact settled arrived (by rw [desk]) stage

/-- A dispatched job is then under way. -/
theorem Step.dispatches {job : Job} (step : lanes.Step out next)
    (member : .dispatched job ∈ out) : next.underway job.key = some job := by
  have still : ∀ {before : List Event}, (∀ event ∈ before, event.Quiet lanes.desk) →
      .dispatched job ∉ before := fun quiet inside => (quiet _ inside).elim
  have resolved : ∀ other answer, .dispatched job ∉ lanes.desk.settleEvents other answer := by
    intro other answer inside
    unfold AlarmStateCoordinator.settleEvents AlarmStateCoordinator.resolve at inside
    split at inside <;> simp at inside
  cases step with
  | still quiet => exact absurd member (still quiet)
  | @start key status confirmation before newJob _ decides quiet idle opens desk stage =>
      have early := still quiet
      have same : job = newJob := by
        cases confirmation <;>
          simpa [early, AlarmStateCoordinator.recordEvent] using member
      rw [same, AlarmStateCoordinator.nextJob_key opens, underway_update stage,
        Function.update_self]
      rfl
  | @displace _ _ given _ _ _ _ quiet _ _ _ =>
      have early := still quiet
      cases given <;> simp [early, AlarmStateCoordinator.recordEvent] at member
  | travel move _ _ => exact absurd member move.not_dispatched
  | report _ _ => exact absurd member List.not_mem_nil
  | commitLast _ _ _ _ => simp [resolved] at member
  | commitNext _ _ _ follows _ stage | rollBack _ _ _ follows _ stage
  | redispatch _ _ _ follows _ stage =>
      simp only [List.mem_append, resolved, List.mem_cons, Event.dispatched.injEq, reduceCtorEq,
        List.not_mem_nil, or_false, false_or] at member
      rw [member, AlarmStateCoordinator.nextJob_key follows, underway_update stage,
        Function.update_self]
      rfl

end Lanes

/-- What the history and the lanes say about the answers given so far. -/
structure Truthful (past : List Event) (lanes : Lanes) : Prop where
  built : ∀ {id key status confirmation}, .admitted id key status confirmation ∈ past →
    ∃ action user now, status = buildUserStatus key action user now
  kept : ∀ {before after id key confirmation},
    past = before ++ .resolved id key confirmation (.ok ()) :: after →
    ∃ job, job.id = id ∧ job.key = key ∧ .admitted id key job.status confirmation ∈ before ∧
      Happened before job (.answered key job.status.wake true) ∧
      Happened before job (.published key job.status true)
  delivered : ∀ {job status}, Happened past job (.published job.key status true) →
    job.id < lanes.desk.idCounter ∧
      (lanes.desk.pendingConfirmations.get? job.id = none ∨
        ∃ current, lanes.underway job.key = some current ∧ current.id = job.id ∧
          (lanes.stage job.key).published = true)
  failed : ∀ {id key confirmation error}, .resolved id key confirmation (.error error) ∈ past →
    error = .internal key ∧ Retired lanes.desk lanes.underway id ∧
      ∀ job status, job.id = id → ¬ Happened past job (.published job.key status true)
  final : ∀ {before after id key confirmation error},
    past = before ++ .resolved id key confirmation (.error error) :: after →
    ∀ job, .dispatched job ∈ after → job.id ≠ id

namespace Truthful

variable {hydratedStatuses : FiniteMap Key Status} {lanes next : Lanes} {past out : List Event}

theorem start (hydratedStatuses : FiniteMap Key Status) :
    Truthful [] (.start hydratedStatuses) where
  built := fun member => absurd member List.not_mem_nil
  kept := fun split => absurd split (by simp)
  delivered := by
    rintro job status ⟨before, after, split, _⟩
    simp at split
  failed := fun member => absurd member List.not_mem_nil
  final := fun split => absurd split (by simp)

/-- A publish that succeeds is one of the job under way, or it is an old one. -/
theorem delivery (step : lanes.Step out next) (chronicle : lanes.Chronicle past) {job : Job}
    {status : Status} (happened : Happened (past ++ out) job (.published job.key status true)) :
    Happened past job (.published job.key status true) ∨
      (lanes.underway job.key = some job ∧ next.underway = lanes.underway ∧
        next.desk = lanes.desk ∧ (next.stage job.key).published = true) := by
  rcases happened.of_append with old | fresh
  · exact .inl old
  · obtain ⟨current, number, arrived, rfl, single, desk, stage⟩ := step.delivers fresh
    rw [single] at happened
    rcases happened.of_snoc with old | ⟨_, last⟩
    · exact .inl old
    · have under : lanes.underway job.key = some current := by
        rw [Lanes.underway, arrived]
        rfl
      have same := (chronicle job.key).last current under
      obtain rfl := Option.some.inj (same.symm.trans last)
      refine .inr ⟨under, Lanes.underway_same stage (by rw [arrived]; rfl), desk, ?_⟩
      rw [stage, Function.update_self]
      rfl

theorem step (truthful : Truthful past lanes) (step : lanes.Step out next)
    (ledger : Ledger hydratedStatuses past lanes.desk lanes.underway)
    (chronicle : lanes.Chronicle past) : Truthful (past ++ out) next where
  built := by
    intro id key status confirmation member
    rcases List.mem_append.mp member with early | late
    · exact truthful.built early
    · exact step.built late
  kept := by
    intro before after id key confirmation split
    rcases split_append split with ⟨rest, same, _⟩ | ⟨early, rfl, same⟩
    · exact truthful.kept same
    · have member : .resolved id key confirmation (.ok ()) ∈ out := by
        rw [same]
        simp
      obtain ⟨job, ok, arrived, rfl, rfl, owed, verdict⟩ := step.resolves ledger member
      rcases verdict with ⟨rfl, _⟩ | ⟨_, failed, _⟩
      · have under := Lanes.underway_settled arrived
        have history := chronicle job.key
        rw [arrived] at history
        obtain ⟨issuedKey, status, admitted⟩ := ledger.pending owed
        -- The status admitted under the id of the job is the status of the job.
        have named : issuedKey = job.key ∧ status = job.status := by
          rcases (ledger.job under).2 with ⟨reserved, _⟩ | issued
          · rw [reserved, ledger.reserved] at owed
            cases owed
          · exact ledger.unique (.inr ⟨confirmation, admitted⟩) issued
        rw [named.1, named.2] at admitted
        exact ⟨job, rfl, rfl, List.mem_append_left _ admitted,
          (history.accepted job rfl rfl).append early,
          (history.published job rfl rfl).append early⟩
      · cases failed
  delivered := by
    intro job status happened
    rcases delivery step chronicle happened with old | ⟨under, same, desk, published⟩
    · obtain ⟨below, nothing | ⟨current, under, named, published⟩⟩ := truthful.delivered old
      · exact ⟨lt_of_lt_of_le below step.counter_le, .inl (step.owes_nothing below nothing)⟩
      · refine ⟨lt_of_lt_of_le below step.counter_le, ?_⟩
        rcases step.published under published with nothing | ⟨stays, still⟩
        · exact .inl (by rw [← named]; exact nothing)
        · exact .inr ⟨current, stays, named, still⟩
    · refine ⟨?_, .inr ⟨job, by rw [same]; exact under, rfl, published⟩⟩
      rw [desk]
      exact ledger.below (ledger.job under).2
  failed := by
    intro id key confirmation error member
    rcases List.mem_append.mp member with early | late
    · obtain ⟨same, retired, unpublished⟩ := truthful.failed early
      refine ⟨same, step.retired retired, ?_⟩
      intro job status named happened
      rcases delivery step chronicle happened with old | ⟨under, _, _, _⟩
      · exact unpublished job status named old
      · exact retired.underway job.key job under named
    · obtain ⟨job, ok, arrived, rfl, rfl, owed, verdict⟩ := step.resolves ledger late
      rcases verdict with ⟨_, absurd⟩ | ⟨rfl, same, retired⟩
      · cases absurd
      · cases same
        refine ⟨rfl, retired, ?_⟩
        intro other status named happened
        rcases delivery step chronicle happened with old | ⟨under, same, _, _⟩
        · obtain ⟨_, nothing | ⟨current, under, sameId, published⟩⟩ := truthful.delivered old
          · rw [named, owed] at nothing
            cases nothing
          · -- The id owes an answer, so it is known to the key of the failed job only.
            have known := (ledger.job (Lanes.underway_settled arrived)).2
            have otherKnown := (ledger.job under).2
            rw [sameId, named] at otherKnown
            by_cases apart : other.key = job.key
            · rw [apart, arrived] at published
              cases published
            · rw [ledger.apart known otherKnown apart] at owed
              cases owed
        · rw [← same] at under
          exact retired.underway other.key other under named
  final := by
    intro before after id key confirmation error split job dispatched
    rcases split_append split with ⟨rest, same, rfl⟩ | ⟨early, rfl, same⟩
    · rcases List.mem_append.mp dispatched with old | fresh
      · exact truthful.final same job old
      · have early : .resolved id key confirmation (.error error) ∈ past := by
          rw [same]
          simp
        obtain ⟨_, retired, _⟩ := truthful.failed early
        exact (step.retired retired).underway job.key job (step.dispatches fresh)
    · have member : .resolved id key confirmation (.error error) ∈ out := by
        rw [same]
        simp
      have late : .dispatched job ∈ out := by
        rw [same]
        simp [dispatched]
      obtain ⟨_, _, _, _, _, _, ⟨_, absurd⟩ | ⟨_, _, retired⟩⟩ := step.resolves ledger member
      · cases absurd
      · exact retired.underway job.key job (step.dispatches late)

end Truthful

/-- A user update the policy does not allow is answered with the transition it asked for,
and the pipeline stays as it was. -/
theorem Refines.refuses {pipeline : Pipeline} {lanes : Lanes} (refines : Refines pipeline lanes)
    {key : Key} {action : UserAction} (refused : pipeline.coordinator.allows key action = false)
    (user : String) (confirmation : Confirmation) (now : Int) :
    pipeline.step (.input (.userUpdate key action user confirmation) now) =
      some (pipeline, [.refused confirmation (.stateNotAllowed
        { key
          current := ((pipeline.coordinator.getLatestStatus key).map
            fun status => status.state.value).getD .unknown
          requested := action.asState })]) := by
  rw [AlarmStateCoordinator.allows] at refused
  simp only [Pipeline.step, Pipeline.handle, if_pos refines.coordinatorRunning,
    refines.jobPort_eq, AlarmStateCoordinator.handleMessage,
    AlarmStateCoordinator.handleUserUpdate_eq, refused, Bool.false_eq_true, if_false,
    Handled.done, Pipeline.coordinate_ok, Option.map_some, Pipeline.deliver_byCoordinator,
    List.append_nil]

/-- In every run a confirmation is answered `Ok` only after the scheduler accepted the
command of its job and the status built for the update was published; it is answered
`Internal` only if no publish of its job succeeds in the whole run, and its job is not
dispatched again. A refused update changes nothing. -/
theorem confirmations_truthful {hydratedStatuses : FiniteMap Key Status} {actions : List Action}
    {events : List Event} {final : Pipeline}
    (run : Pipeline.machine.Run Machine.Every (.start hydratedStatuses) actions events final) :
    (∀ before after id key confirmation,
      events = before ++ .resolved id key confirmation (.ok ()) :: after →
      ∃ job action user now, job.id = id ∧ job.key = key ∧
        job.status = buildUserStatus key action user now ∧
        .admitted id key job.status confirmation ∈ before ∧
        Happened before job (.answered key job.status.wake true) ∧
        Happened before job (.published key job.status true)) ∧
    (∀ before after id key confirmation error,
      events = before ++ .resolved id key confirmation (.error error) :: after →
      error = .internal key ∧
        (∀ job status, job.id = id → ¬ Happened events job (.published job.key status true)) ∧
        ∀ job, .dispatched job ∈ after → job.id ≠ id) ∧
    (∀ key action user confirmation now, final.coordinator.allows key action = false →
      final.step (.input (.userUpdate key action user confirmation) now) =
        some (final, [.refused confirmation (.stateNotAllowed
          { key
            current := ((final.coordinator.getLatestStatus key).map
              fun status => status.state.value).getD .unknown
            requested := action.asState })])) := by
  obtain ⟨lanes, refines, truthful, _, _⟩ := (Refines.initial hydratedStatuses).history run
    (fun past lanes => Truthful past lanes ∧
      Ledger hydratedStatuses past lanes.desk lanes.underway ∧ lanes.Chronicle past)
    ⟨Truthful.start hydratedStatuses, Ledger.start hydratedStatuses, fun _ => .idle⟩
    (by
      rintro past lanes out next ⟨truthful, ledger, chronicle⟩ step
      exact ⟨truthful.step step ledger chronicle, step.ledger ledger, step.chronicle chronicle⟩)
  refine ⟨?_, ?_, ?_⟩
  · intro before after id key confirmation split
    obtain ⟨job, sameId, sameKey, admitted, accepted, published⟩ := truthful.kept split
    obtain ⟨action, user, now, built⟩ := truthful.built (by
      rw [split]
      exact List.mem_append_left _ admitted)
    exact ⟨job, action, user, now, sameId, sameKey, built, admitted, accepted, published⟩
  · intro before after id key confirmation error split
    have member : .resolved id key confirmation (.error error) ∈ events := by
      rw [split]
      simp
    obtain ⟨same, _, unpublished⟩ := truthful.failed member
    exact ⟨same, unpublished, truthful.final split⟩
  · intro key action user confirmation now refused
    exact refines.refuses refused user confirmation now

end

section

attribute [local instance] asciiPlatform

/-- An operator acknowledges an alarm that was published. -/
def acknowledgedAlarm : List Action :=
  [.input (.automatedUpdate (pump.report .alarmed .high)) 0] ++
  Pipeline.carry ⟨0, 0⟩ ++ [.completion 0 true, .flush, .publishOutcome, .jobOutcome 0,
    .input (.userUpdate pump .acknowledge "operator" 10) 0] ++
  Pipeline.carry ⟨0, 0⟩ ++ [.completion 0 true, .publishOutcome, .jobOutcome 0]

/-- The answer says that the acknowledgement was published. -/
theorem confirmations_truthful_acknowledged :
    ∃ (final : Pipeline) (events : List Event) (job : Job) (action : UserAction) (user : String)
      (now : Int),
      Pipeline.machine.Run Machine.Every (.start .empty) acknowledgedAlarm events final ∧
        .resolved 2 pump 10 (.ok ()) ∈ events ∧ job.id = 2 ∧ job.key = pump ∧
        job.status = buildUserStatus pump action user now ∧
        .admitted 2 pump job.status 10 ∈ events ∧
        Happened events job (.answered pump job.status.wake true) ∧
        Happened events job (.published pump job.status true) := by
  obtain ⟨final, events, run, check⟩ := Pipeline.run_of_check .empty acknowledgedAlarm
    (fun _ events => .resolved 2 pump 10 (.ok ()) ∈ events) (by decide)
  simp only [decide_eq_true_eq] at check
  obtain ⟨before, after, rfl⟩ := List.append_of_mem check
  obtain ⟨kept, _, _⟩ := confirmations_truthful run.forget
  obtain ⟨job, action, user, now, sameId, sameKey, built, admitted, accepted, published⟩ :=
    kept before after 2 pump 10 rfl
  exact ⟨final, _, job, action, user, now, run.forget, check, sameId, sameKey, built,
    List.mem_append_left _ admitted, accepted.append _, published.append _⟩

end

end AcornAlarms
