import AcornAlarms.Lanes.Origins
import AcornAlarms.Properties.Confirmations

/-!
# Which updates are dispatched

A job that was dispatched for a user update is under way until its confirmation is answered. An
update leaves the speculative state only by a later record of its key, or once it was
dispatched itself. So an admitted update whose key came to rest was answered or displaced.
-/

namespace AcornAlarms

open Library

section

variable [Platform]

namespace Lanes

variable {hydratedStatuses : FiniteMap Key Status} {lanes next : Lanes} {past out : List Event}
  {key : Key} {job : Job}

/-- A job under way stays, or stops owing a confirmation. -/
theorem Step.stays (step : lanes.Step out next) (under : lanes.underway key = some job) :
    next.desk.pendingConfirmations.get? job.id = none ∨ next.underway key = some job := by
  -- A settled job is this job, or the lane is another one.
  have settled : ∀ {other ok reached}, lanes.stage other.key = .settled other ok →
      next.desk.pendingConfirmations = (lanes.desk.settle other).pendingConfirmations →
      next.stage = Function.update lanes.stage other.key reached →
      next.desk.pendingConfirmations.get? job.id = none ∨ next.underway key = some job := by
    intro other ok reached arrived pending stage
    rcases eq_or_ne key other.key with rfl | apart
    · rw [underway_settled arrived] at under
      obtain rfl := Option.some.inj under
      exact .inl (by rw [pending]; exact lanes.desk.settle_answered other)
    · rw [underway, stage, Function.update_of_ne apart]
      exact .inr under
  cases step with
  | still _ => exact .inr under
  | @start started _ _ _ _ _ _ _ idle _ _ stage =>
      have apart : key ≠ started := by
        rintro rfl
        rw [underway, idle] at under
        cases under
      rw [underway, stage, Function.update_of_ne apart]
      exact .inr under
  | displace _ _ _ _ stage =>
      rw [underway, stage]
      exact .inr under
  | travel move desk stage =>
      rw [underway_same stage move.job?]
      exact .inr under
  | report desk each =>
      rw [underway_report each]
      exact .inr under
  | commitLast arrived _ desk stage => exact settled arrived (by rw [desk]; rfl) stage
  | commitNext arrived _ _ _ desk stage => exact settled arrived (by rw [desk]; rfl) stage
  | rollBack arrived _ _ _ desk stage => exact settled arrived (by rw [desk]; rfl) stage
  | redispatch arrived _ _ _ desk stage => exact settled arrived (by rw [desk]) stage

/-- A latest intent stays until its key records another one, or its own job settles. -/
theorem Step.latest_stays {entry : Status × Nat} (step : lanes.Step out next)
    (latest : lanes.desk.speculativeState.get? key = some entry) :
    next.desk.speculativeState.get? key = some entry ∨
      (∃ event ∈ out, event.recordKey? = some key) ∨
        ∃ job, lanes.underway key = some job ∧ job.id = entry.2 := by
  -- A record of the key is an event, and one of another key does not touch it.
  have recorded : ∀ {other status confirmation},
      lanes.desk.recordEvent other status confirmation ∈ out →
      next.desk = lanes.desk.record other status confirmation →
      next.desk.speculativeState.get? key = some entry ∨
        ∃ event ∈ out, event.recordKey? = some key := by
    intro other status confirmation member desk
    rcases eq_or_ne key other with rfl | apart
    · exact .inr ⟨_, member, AlarmStateCoordinator.recordEvent_recordKey? _ _ _ _⟩
    · rw [desk, AlarmStateCoordinator.record_speculativeState,
        FiniteMap.get?_insert_of_ne _ _ apart]
      exact .inl latest
  cases step with
  | still _ => exact .inl latest
  | start _ _ _ _ desk _ => exact (recorded (by simp) desk).imp_right .inl
  | displace _ _ _ desk _ => exact (recorded (by simp) desk).imp_right .inl
  | travel _ desk _ | report desk _ =>
      rw [desk]
      exact .inl latest
  | @commitLast done status _ arrived current desk stage =>
      rcases eq_or_ne key done.key with rfl | apart
      · rw [current] at latest
        obtain rfl := Option.some.inj latest
        exact .inr (.inr ⟨done, underway_settled arrived, rfl⟩)
      · exact .inl (by simp [desk, FiniteMap.get?_erase_of_ne _ apart, latest])
  | commitNext _ _ _ _ desk _ => exact .inl (by simp [desk, latest])
  | @rollBack failed status _ _ arrived current _ _ desk stage =>
      rcases eq_or_ne key failed.key with rfl | apart
      · rw [current] at latest
        obtain rfl := Option.some.inj latest
        exact .inr (.inr ⟨failed, underway_settled arrived, rfl⟩)
      · exact .inl (by simp [desk, FiniteMap.get?_insert_of_ne _ _ apart, latest])
  | redispatch _ _ _ _ desk _ => exact .inl (by simp [desk, latest])

/-- An admitted update is the latest intent of its key. -/
theorem Step.admitted_latest {id : Nat} {status : Status} {confirmation : Confirmation}
    (step : lanes.Step out next) (member : .admitted id key status confirmation ∈ out) :
    next.desk.speculativeState.get? key = some (status, id) := by
  -- Only the event of a record admits anything.
  have recorded : ∀ {other given waiting}, .admitted id key status confirmation =
      lanes.desk.recordEvent other given waiting →
      next.desk = lanes.desk.record other given waiting →
      next.desk.speculativeState.get? key = some (status, id) := by
    intro other given waiting same desk
    cases waiting with
    | none => cases same
    | some confirmation =>
        cases same
        rw [desk, AlarmStateCoordinator.record_speculativeState, FiniteMap.get?_insert_self]
  have still : ∀ {before : List Event}, (∀ event ∈ before, event.Quiet lanes.desk) →
      .admitted id key status confirmation ∉ before := fun quiet inside => (quiet _ inside).elim
  cases step with
  | still quiet => exact absurd member (still quiet)
  | start _ quiet _ _ desk _ =>
      rcases List.mem_append.mp member with early | late
      · exact absurd early (still quiet)
      · rcases List.mem_cons.mp late with same | last
        · exact recorded same desk
        · cases List.mem_singleton.mp last
  | displace _ quiet _ desk _ =>
      rcases List.mem_append.mp member with early | late
      · exact absurd early (still quiet)
      · exact recorded (List.mem_singleton.mp late) desk
  | travel move _ _ => cases move.unrecorded _ member
  | report _ _ => exact absurd member List.not_mem_nil
  | commitLast | commitNext | rollBack | redispatch =>
      rcases List.mem_append.mp member with early | late
      · cases lanes.desk.resolve_unrecorded _ _ _ early
      · simp at late

end Lanes

/-- What a history says of the dispatched jobs and of the admitted updates. -/
structure Carried (past : List Event) (lanes : Lanes) : Prop where
  below : ∀ {job}, .dispatched job ∈ past → job.id < lanes.desk.idCounter
  /-- A dispatched job that owes a confirmation is under way. -/
  under : ∀ {job}, .dispatched job ∈ past →
    (lanes.desk.pendingConfirmations.get? job.id).isSome = true →
    ∃ current, lanes.underway job.key = some current ∧ current.id = job.id
  /-- An answered job was dispatched. -/
  answered : ∀ {id key confirmation answer}, .resolved id key confirmation answer ∈ past →
    ∃ job, .dispatched job ∈ past ∧ job.id = id
  /-- An admitted update is the latest intent, or was replaced, or was dispatched. -/
  admitted : ∀ {before after id key status confirmation},
    past = before ++ .admitted id key status confirmation :: after →
    lanes.desk.speculativeState.get? key = some (status, id) ∨
      (∃ event ∈ after, event.recordKey? = some key) ∨
        ∃ job, .dispatched job ∈ past ∧ job.id = id

namespace Carried

variable {hydratedStatuses : FiniteMap Key Status} {lanes next : Lanes} {past out : List Event}

theorem start (hydratedStatuses : FiniteMap Key Status) : Carried [] (.start hydratedStatuses) where
  below := by simp
  under := by simp
  answered := by simp
  admitted := by simp

theorem step (carried : Carried past lanes) (step : lanes.Step out next)
    (ledger : Ledger hydratedStatuses past lanes.desk lanes.underway)
    (chronicle : lanes.Chronicle past) : Carried (past ++ out) next := by
  have reached := step.ledger ledger
  -- The job under way for a key was dispatched.
  have dispatched : ∀ {key job}, lanes.underway key = some job → .dispatched job ∈ past := by
    intro key job under
    obtain ⟨older, event, newer, rfl, picked, _⟩ :=
      latest_eq_some_iff.mp ((chronicle key).last job under)
    cases event with
    | dispatched other =>
        simp only [Event.dispatch?, Option.ite_none_right_eq_some, Option.some.injEq] at picked
        obtain ⟨_, rfl⟩ := picked
        simp
    | _ => cases picked
  constructor
  · intro job member
    rcases List.mem_append.mp member with early | late
    · exact Nat.lt_of_lt_of_le (carried.below early) step.counter_le
    · exact reached.below (reached.job (step.dispatches late)).2
  · intro job member owes
    rcases List.mem_append.mp member with early | late
    · -- It owed before, so it was under way, and a job that owes stays.
      have owed : (lanes.desk.pendingConfirmations.get? job.id).isSome = true := by
        by_contra none
        rw [Bool.not_eq_true, Option.isSome_eq_false_iff, Option.isNone_iff_eq_none] at none
        rw [step.owes_nothing (carried.below early) none] at owes
        cases owes
      obtain ⟨current, under, same⟩ := carried.under early owed
      rcases step.stays under with nothing | stays
      · rw [same] at nothing
        rw [nothing] at owes
        cases owes
      · exact ⟨current, stays, same⟩
    · exact ⟨job, step.dispatches late, rfl⟩
  · intro id key confirmation answer member
    rcases List.mem_append.mp member with early | late
    · obtain ⟨job, inside, same⟩ := carried.answered early
      exact ⟨job, List.mem_append_left _ inside, same⟩
    · obtain ⟨job, ok, arrived, same, rfl, _⟩ := step.resolves ledger late
      exact ⟨job, List.mem_append_left _ (dispatched (Lanes.underway_settled arrived)), same⟩
  · intro before after id key status confirmation split
    rcases split_append split with ⟨rest, earlier, rfl⟩ | ⟨early, rfl, later⟩
    · rcases carried.admitted earlier with latest | ⟨event, member, names⟩ | ⟨job, inside, same⟩
      · rcases step.latest_stays latest with stays | ⟨event, member, names⟩ | ⟨job, under, same⟩
        · exact .inl stays
        · exact .inr (.inl ⟨event, List.mem_append_right _ member, names⟩)
        · exact .inr (.inr ⟨job, List.mem_append_left _ (dispatched under), same⟩)
      · exact .inr (.inl ⟨event, List.mem_append_left _ member, names⟩)
      · exact .inr (.inr ⟨job, List.mem_append_left _ inside, same⟩)
    · have member : .admitted id key status confirmation ∈ out := by
        rw [later]
        simp
      exact .inl (step.admitted_latest member)

end Carried

end

end AcornAlarms
