import AcornAlarms.Lanes.Decisions
import AcornAlarms.Lanes.Ledger

/-!
# Pending confirmations

Which ids owe a confirmation, and when one is forgotten: a recorded status that
replaces a user intent not yet dispatched leaves the id of that intent with
neither a job nor a speculative entry, so nothing will ever answer it.
-/

namespace AcornAlarms

open Library

section

variable [Platform]

/-- Every id that owes a confirmation is that of an outstanding job or of a
speculative entry. -/
def Pipeline.Accounted (self : Pipeline) : Prop :=
  ∀ id, self.coordinator.pendingConfirmations.contains id = true →
    (∃ key, ∃ job ∈ self.outstanding key, job.id = id) ∨
      ∃ key status, self.coordinator.speculativeState.get? key = some (status, id)

/-- A turn that records a status for a key does not replace an entry that owes a
confirmation, unless the job of that entry is outstanding. -/
def Pipeline.spares (self : Pipeline) (action : Action) : Bool :=
  (self.records action).all fun key =>
    (self.coordinator.speculativeState.get? key).all fun (_, id) =>
      !self.coordinator.pendingConfirmations.contains id ||
        (self.outstanding key).any fun job => job.id = id

/-- Every turn spares the entries that owe a confirmation. -/
def Pipeline.Sparing : List Event → Pipeline → Action → Prop :=
  fun _ self action => self.spares action = true

/-- `Pipeline.Accounted` for lanes. -/
def Lanes.Accounted (lanes : Lanes) : Prop :=
  ∀ id confirmation, lanes.desk.pendingConfirmations.get? id = some confirmation →
    (∃ key job, lanes.underway key = some job ∧ job.id = id) ∨
      ∃ key status, lanes.desk.speculativeState.get? key = some (status, id)

/-- Every admitted user update still owes its confirmation or was answered. -/
def Answered (past : List Event) (desk : AlarmStateCoordinator) : Prop :=
  ∀ id key status confirmation, .admitted id key status confirmation ∈ past →
    desk.pendingConfirmations.get? id = some confirmation ∨
      ∃ answer, .resolved id key confirmation answer ∈ past

namespace Lanes

variable {lanes next : Lanes} {past out : List Event}

/-- Once a job is settled its id owes nothing, and every other id stays where it was. -/
theorem Accounted.reconciled (accounted : lanes.Accounted) {job : Job} {reached : Stage}
    (under : lanes.underway job.key = some job)
    (pending : next.desk.pendingConfirmations = (lanes.desk.settle job).pendingConfirmations)
    (stage : next.stage = Function.update lanes.stage job.key reached)
    (entries : ∀ {key status id}, lanes.desk.speculativeState.get? key = some (status, id) →
      id ≠ job.id → next.desk.speculativeState.get? key = some (status, id)) :
    next.Accounted := by
  intro id confirmation owed
  rw [pending, AlarmStateCoordinator.settle_pending] at owed
  split at owed
  · cases owed
  · next different =>
      rcases accounted id _ owed with ⟨key, other, found, rfl⟩ | ⟨key, status, found⟩
      · refine .inl ⟨key, other, ?_, rfl⟩
        have apart : key ≠ job.key := by
          rintro rfl
          rw [under] at found
          exact different (congrArg Job.id (Option.some.inj found)).symm
        rw [underway_update stage, Function.update_of_ne apart]
        exact found
      · exact .inr ⟨key, status, entries found different⟩

/-- A step that replaces no entry it should spare keeps every pending id accounted for. -/
theorem Step.accounted (step : lanes.Step out next) (accounted : lanes.Accounted)
    (spares : ∀ event ∈ out, ∀ key status id job, event.recordKey? = some key →
      lanes.underway key = some job →
      lanes.desk.speculativeState.get? key = some (status, id) →
      lanes.desk.pendingConfirmations.contains id = true → job.id = id) :
    next.Accounted := by
  cases step with
  | still quiet => exact accounted
  | @start key status confirmation before job _ decides quiet idle opens desk stage =>
      have empty : lanes.desk.speculativeState.get? key = none := by
        rw [← Option.not_isSome_iff_eq_none, lanes.busy key, idle]
        simp [Stage.job?]
      intro id other owed
      rw [desk, AlarmStateCoordinator.record_pending] at owed
      rw [desk, AlarmStateCoordinator.record_speculativeState, underway_update stage]
      split at owed
      · next fresh =>
          exact .inr ⟨key, status, by rw [FiniteMap.get?_insert_self, fresh.1]⟩
      · rcases accounted id _ owed with ⟨busy, found, under, same⟩ | ⟨entry, old, found⟩
        · have apart : busy ≠ key := by
            rintro rfl
            rw [underway, idle] at under
            cases under
          exact .inl ⟨busy, found, by rw [Function.update_of_ne apart]; exact under, same⟩
        · have apart : entry ≠ key := by
            rintro rfl
            rw [empty] at found
            cases found
          exact .inr ⟨entry, old, by rw [FiniteMap.get?_insert_of_ne _ _ apart]; exact found⟩
  | @displace key status confirmation before job _ decides quiet under desk stage =>
      intro id other owed
      rw [desk, AlarmStateCoordinator.record_pending] at owed
      have kept : next.underway = lanes.underway := by
        funext key
        rw [underway, underway, stage]
      rw [desk, AlarmStateCoordinator.record_speculativeState, kept]
      split at owed
      · next fresh =>
          exact .inr ⟨key, status, by rw [FiniteMap.get?_insert_self, fresh.1]⟩
      · rcases accounted id _ owed with found | ⟨entry, old, found⟩
        · exact .inl found
        · by_cases same : entry = key
          · -- The replaced entry is spared: its job is the one under way.
            subst same
            have spared := spares _ (List.mem_append_right _ (List.mem_singleton_self _)) entry old
              id job (by simp) under found (by rw [FiniteMap.contains, owed]; rfl)
            exact .inl ⟨entry, job, under, spared⟩
          · exact .inr ⟨entry, old, by rw [FiniteMap.get?_insert_of_ne _ _ same]; exact found⟩
  | travel move desk stage =>
      intro id confirmation owed
      rw [desk] at owed
      rw [desk, underway_same stage move.job?]
      exact accounted id confirmation owed
  | report desk each =>
      intro id confirmation owed
      rw [desk] at owed
      rw [desk, underway_report each]
      exact accounted id confirmation owed
  | @commitLast job status _ arrived latest desk stage =>
      refine accounted.reconciled (underway_settled arrived) (by rw [desk]; rfl) stage ?_
      intro key other id found different
      have apart : key ≠ job.key := by
        rintro rfl
        rw [latest] at found
        exact different (Prod.mk.inj (Option.some.inj found)).2.symm
      simpa [desk, FiniteMap.get?_erase_of_ne _ apart] using found
  | @commitNext job status id newJob _ arrived latest newer follows desk stage =>
      refine accounted.reconciled (underway_settled arrived) (by rw [desk]; rfl) stage ?_
      intro key other id found different
      simpa [desk] using found
  | @rollBack job status newJob _ arrived latest user follows desk stage =>
      refine accounted.reconciled (underway_settled arrived) (by rw [desk]; rfl) stage ?_
      intro key other id found different
      have apart : key ≠ job.key := by
        rintro rfl
        rw [latest] at found
        exact different (Prod.mk.inj (Option.some.inj found)).2.symm
      simpa [desk, FiniteMap.get?_insert_of_ne _ _ apart] using found
  | @redispatch job status id newJob _ arrived latest keeps follows desk stage =>
      refine accounted.reconciled (underway_settled arrived) (by rw [desk]) stage ?_
      intro key other id found different
      simpa [desk] using found

end Lanes

namespace Answered

variable {hydratedStatuses : FiniteMap Key Status} {past out : List Event}
  {desk other : AlarmStateCoordinator} {underway : Key → Option Job}

/-- Events that admit nothing. -/
theorem append (answered : Answered past desk) (quiet : Unrecorded out)
    (same : other.pendingConfirmations = desk.pendingConfirmations) :
    Answered (past ++ out) other := by
  intro id key status confirmation member
  rw [same]
  rcases List.mem_append.mp member with early | late
  · rcases answered _ _ _ _ early with owed | ⟨answer, resolved⟩
    · exact .inl owed
    · exact .inr ⟨answer, List.mem_append_left _ resolved⟩
  · cases quiet _ late

theorem record (answered : Answered past desk)
    (ledger : Ledger hydratedStatuses past desk underway) (key : Key) (status : Status)
    (confirmation : Option Confirmation) :
    Answered (past ++ [desk.recordEvent key status confirmation])
      (desk.record key status confirmation) := by
  intro id otherKey otherStatus other member
  rw [AlarmStateCoordinator.record_pending]
  rcases List.mem_append.mp member with early | late
  · have bound := (ledger.fresh (.inr ⟨other, early⟩)).2
    rw [if_neg (by omega)]
    rcases answered _ _ _ _ early with owed | ⟨answer, resolved⟩
    · exact .inl owed
    · exact .inr ⟨answer, List.mem_append_left _ resolved⟩
  · cases confirmation with
    | none => simp [AlarmStateCoordinator.recordEvent] at late
    | some given =>
        simp only [AlarmStateCoordinator.recordEvent, List.mem_singleton, Event.admitted.injEq]
          at late
        obtain ⟨rfl, rfl, rfl, rfl⟩ := late
        exact .inl (by simp)

/-- Settling a job answers the confirmation of its id. -/
theorem settle (answered : Answered past desk)
    (ledger : Ledger hydratedStatuses past desk underway) {job : Job}
    (found : underway job.key = some job) (answer : Except UpdateError Unit) :
    Answered (past ++ desk.settleEvents job answer) (desk.settle job) := by
  intro id key status confirmation member
  rw [AlarmStateCoordinator.settle_pending]
  rcases List.mem_append.mp member with early | late
  · rcases answered _ _ _ _ early with owed | ⟨given, resolved⟩
    · split
      · next same =>
          subst same
          -- Only this job's key was admitted under its id.
          have named : job.key = key := by
            rcases (ledger.job found).2 with ⟨reserved, _⟩ | issued
            · rw [reserved, ledger.reserved] at owed
              cases owed
            · exact (ledger.unique issued (.inr ⟨confirmation, early⟩)).1
          refine .inr ⟨answer, List.mem_append_right _ ?_⟩
          simp [AlarmStateCoordinator.settleEvents, AlarmStateCoordinator.resolve, owed, named]
      · exact .inl owed
    · exact .inr ⟨given, List.mem_append_left _ resolved⟩
  · cases desk.resolve_unrecorded job answer _ late

end Answered

/-- A step of the lanes forgets no admitted user update. -/
theorem Lanes.Step.answered {hydratedStatuses : FiniteMap Key Status} {lanes next : Lanes}
    {past out : List Event} (step : lanes.Step out next)
    (ledger : Ledger hydratedStatuses past lanes.desk lanes.underway)
    (answered : Answered past lanes.desk) : Answered (past ++ out) next.desk := by
  cases step with
  | still quiet => exact answered.append (quiet_unrecorded quiet) rfl
  | @start key status confirmation before job _ decides quiet idle opens desk stage =>
      have early := ledger.append (quiet_unrecorded quiet)
      have waiting : Answered (past ++ before) lanes.desk :=
        answered.append (quiet_unrecorded quiet) rfl
      have recorded := waiting.record early key status confirmation
      have dispatched := recorded.append (.cons rfl .nil : Unrecorded [.dispatched job]) rfl
      rw [desk]
      simpa using dispatched
  | @displace key status confirmation before _ _ decides quiet under desk stage =>
      have early := ledger.append (quiet_unrecorded quiet)
      have waiting : Answered (past ++ before) lanes.desk :=
        answered.append (quiet_unrecorded quiet) rfl
      have recorded := waiting.record early key status confirmation
      rw [desk, ← List.append_assoc]
      exact recorded
  | travel move desk stage => exact answered.append move.unrecorded (by rw [desk])
  | report desk each => exact answered.append .nil (by rw [desk])
  | @commitLast job status _ arrived latest desk stage =>
      have settled := answered.settle ledger (underway_settled arrived) (.ok ())
      rw [← List.append_assoc]
      exact settled.append (.cons rfl .nil) (by rw [desk]; rfl)
  | @commitNext job status id newJob _ arrived latest newer follows desk stage =>
      have settled := answered.settle ledger (underway_settled arrived) (.ok ())
      rw [← List.append_assoc]
      exact settled.append (.cons rfl (.cons rfl .nil)) (by rw [desk]; rfl)
  | @rollBack job status newJob _ arrived latest user follows desk stage =>
      have settled := answered.settle ledger (underway_settled arrived)
        (.error (.internal job.key))
      rw [← List.append_assoc]
      exact settled.append (.cons rfl (.cons rfl .nil)) (by rw [desk]; rfl)
  | @redispatch job status id newJob _ arrived latest keeps follows desk stage =>
      have settled := answered.settle ledger (underway_settled arrived)
        (.error (.internal job.key))
      rw [← List.append_assoc]
      exact settled.append (.cons rfl (.cons rfl .nil)) (by rw [desk])

/-- In a run that replaces no user intent before its job is dispatched, every id that owes
a confirmation is that of an outstanding job or of a speculative entry. Once both are
gone nothing is owed: every admitted user update was answered. -/
theorem confirmations_accounted {hydratedStatuses : FiniteMap Key Status} {actions : List Action}
    {events : List Event} {final : Pipeline}
    (run : Pipeline.machine.Run Pipeline.Sparing (.start hydratedStatuses) actions events final) :
    final.Accounted ∧
    ((∀ key, final.coordinator.speculativeState.get? key = none) →
      (∀ key, final.outstanding key = []) →
      (∀ id, final.coordinator.pendingConfirmations.get? id = none) ∧
      ∀ id key status confirmation, .admitted id key status confirmation ∈ events →
        ∃ answer, .resolved id key confirmation answer ∈ events) := by
  have kept := run.history
    (fun past state => ∃ lanes, Refines state lanes ∧
      Ledger hydratedStatuses past lanes.desk lanes.underway ∧ lanes.Accounted ∧
      Answered past lanes.desk)
    ⟨_, Refines.initial hydratedStatuses, Ledger.start hydratedStatuses,
      by intro id confirmation owed; simp [Lanes.start, AlarmStateCoordinator.new] at owed,
      by intro id key status confirmation member; exact absurd member List.not_mem_nil⟩
    (by
      rintro past state action next out ⟨lanes, refines, ledger, accounted, answered⟩ spares fires
      obtain ⟨nextLanes, step, after⟩ := refines.step fires
      refine ⟨nextLanes, after, step.ledger ledger, step.accounted accounted ?_,
        step.answered ledger answered⟩
      intro event member key status id job records under found owed
      have bound := refines.records fires member records
      rw [← refines.desk] at found owed
      simp only [Pipeline.Sparing, Pipeline.spares, bound, found, owed, Option.all_some,
        Bool.not_true, Bool.false_or, List.any_eq_true, decide_eq_true_eq] at spares
      obtain ⟨other, inside, same⟩ := spares
      rw [(refines.occupies key).outstanding_eq, Option.mem_toList] at inside
      obtain rfl := Option.some.inj (under.symm.trans inside)
      exact same)
  obtain ⟨lanes, refines, ledger, accounted, answered⟩ := kept
  have counted : final.Accounted := by
    intro id owed
    rw [refines.desk] at owed ⊢
    obtain ⟨confirmation, found⟩ := Option.isSome_iff_exists.mp owed
    rcases accounted id confirmation found with ⟨key, job, under, same⟩ | entry
    · refine .inl ⟨key, job, ?_, same⟩
      rw [(refines.occupies key).outstanding_eq, Option.mem_toList]
      exact under
    · exact .inr entry
  refine ⟨counted, ?_⟩
  intro empty quiet
  have nothing : ∀ id, final.coordinator.pendingConfirmations.get? id = none := by
    intro id
    by_contra present
    rcases counted id (Option.isSome_iff_ne_none.mpr present) with
      ⟨key, job, inside, _⟩ | ⟨key, status, found⟩
    · rw [quiet key] at inside
      exact absurd inside List.not_mem_nil
    · rw [empty key] at found
      cases found
  refine ⟨nothing, ?_⟩
  intro id key status confirmation member
  rcases answered _ _ _ _ member with owed | resolved
  · rw [← refines.desk, nothing id] at owed
    cases owed
  · exact resolved

end

section

attribute [local instance] asciiPlatform

/-- An acknowledgement and a bypass arrive while the alarm they are about is being
published: the bypass replaces the acknowledgement, which nothing answers any more. -/
def forgottenAcknowledgement : List Action :=
  [.input (.automatedUpdate (pump.report .alarmed .high)) 0,
    .input (.userUpdate pump .acknowledge "operator" 10) 0,
    .input (.userUpdate pump (.bypass none) "operator" 11) 0] ++
  Pipeline.carry ⟨0, 0⟩ ++ [.completion 0 true, .flush, .publishOutcome, .jobOutcome 0] ++
  Pipeline.carry ⟨0, 0⟩ ++ [.completion 0 true, .publishOutcome, .jobOutcome 0]

/-- The acknowledgement is owed its answer when all work is done. -/
theorem confirmation_forgotten :
    ∃ (final : Pipeline) (events : List Event),
      Pipeline.machine.Run Pipeline.Prioritized (.start .empty) forgottenAcknowledgement events
        final ∧
      (∀ key, final.coordinator.speculativeState.get? key = none) ∧
      (∀ key, final.outstanding key = []) ∧
      .admitted 2 pump (buildUserStatus pump .acknowledge "operator" 0) 10 ∈ events ∧
      final.coordinator.pendingConfirmations.get? 2 = some 10 ∧ ¬ final.Accounted := by
  obtain ⟨final, events, run, check⟩ := Pipeline.run_of_check .empty forgottenAcknowledgement
    (fun final events => final.coordinator.speculativeState.keys = [] ∧
      .admitted 2 pump (buildUserStatus pump .acknowledge "operator" 0) 10 ∈ events ∧
      final.coordinator.pendingConfirmations.get? 2 = some 10) (by decide)
  simp only [decide_eq_true_eq] at check
  obtain ⟨keys, admitted, owed⟩ := check
  obtain ⟨lanes, refines⟩ := (Refines.initial .empty).run run
  have empty := (FiniteMap.keys_eq_nil_iff _).mp keys
  have quiet : ∀ key, final.outstanding key = [] := fun key => refines.outstanding_nil (empty key)
  refine ⟨final, events, run, empty, quiet, admitted, owed, ?_⟩
  intro accounted
  rcases accounted 2 (by rw [FiniteMap.contains, owed]; rfl) with
    ⟨key, job, inside, _⟩ | ⟨key, status, found⟩
  · rw [quiet key] at inside
    exact absurd inside List.not_mem_nil
  · rw [empty key] at found
    cases found

/-- An operator acknowledges an alarm whose job is under way, and both are published. -/
def acknowledgedUnderWay : List Action :=
  [.input (.automatedUpdate (pump.report .alarmed .high)) 0,
    .input (.userUpdate pump .acknowledge "operator" 10) 0] ++
  Pipeline.carry ⟨0, 0⟩ ++ [.completion 0 true, .flush, .publishOutcome, .jobOutcome 0] ++
  Pipeline.carry ⟨0, 0⟩ ++ [.completion 0 true, .publishOutcome, .jobOutcome 0]

/-- Without the bypass the acknowledgement is answered. -/
theorem confirmations_accounted_acknowledged :
    ∃ (final : Pipeline) (answer : Except UpdateError Unit) (events : List Event),
      Pipeline.machine.Run Pipeline.Sparing (.start .empty) acknowledgedUnderWay events final ∧
      final.Accounted ∧ .resolved 2 pump 10 answer ∈ events := by
  obtain ⟨final, events, run, check⟩ := Pipeline.machine.run_of_check
    (fun _ _ _ allowed => allowed : ∀ past (state : Pipeline) action,
      state.spares action = true → Pipeline.Sparing past state action) (.start .empty)
    acknowledgedUnderWay
    (fun final events => final.coordinator.speculativeState.keys = [] ∧
      .admitted 2 pump (buildUserStatus pump .acknowledge "operator" 0) 10 ∈ events) (by decide)
  simp only [decide_eq_true_eq] at check
  obtain ⟨keys, admitted⟩ := check
  obtain ⟨lanes, refines⟩ := (Refines.initial .empty).run run
  have empty := (FiniteMap.keys_eq_nil_iff _).mp keys
  obtain ⟨accounted, done⟩ := confirmations_accounted run
  obtain ⟨_, answered⟩ := done empty fun key => refines.outstanding_nil (empty key)
  obtain ⟨answer, resolved⟩ := answered 2 pump _ 10 admitted
  exact ⟨final, answer, events, run, accounted, resolved⟩

end

end AcornAlarms
