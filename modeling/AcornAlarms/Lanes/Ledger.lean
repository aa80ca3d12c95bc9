import AcornAlarms.Lanes.Refinement

/-!
# Where the ids come from

Every id names the one status it was allocated for. `Ledger` ties the ids in the
coordinator's maps and of the jobs on the lanes to the history that allocated them,
and says which of them still owe a confirmation.
-/

namespace AcornAlarms

open Library

variable [Platform]

/-- The history allocated an id for a status of a key. -/
def Issued (past : List Event) (id : Nat) (key : Key) (status : Status) : Prop :=
  .recorded id key status ∈ past ∨ ∃ confirmation, .admitted id key status confirmation ∈ past

/-- The status the reserved id stands for: the hydrated one, or the default of a rollback. -/
def baseline (hydratedStatuses : FiniteMap Key Status) (key : Key) : Status :=
  (hydratedStatuses.get? key).getD (buildDefaultStatus key)

/-- An id of a key is the reserved one, or the history allocated it. -/
def Known (hydratedStatuses : FiniteMap Key Status) (past : List Event) (id : Nat) (key : Key)
    (status : Status) : Prop :=
  (id = defaultHydratedId ∧ status = baseline hydratedStatuses key) ∨ Issued past id key status

variable {hydratedStatuses : FiniteMap Key Status} {past out : List Event} {id : Nat} {key : Key}
  {status : Status}

theorem Issued.append (issued : Issued past id key status) (out : List Event) :
    Issued (past ++ out) id key status :=
  issued.imp (List.mem_append_left out)
    fun ⟨confirmation, member⟩ => ⟨confirmation, List.mem_append_left out member⟩

theorem Known.append (known : Known hydratedStatuses past id key status) (out : List Event) :
    Known hydratedStatuses (past ++ out) id key status :=
  known.imp_right fun issued => issued.append out

theorem Issued.of_append (quiet : Unrecorded out)
    (issued : Issued (past ++ out) id key status) : Issued past id key status := by
  rcases issued with member | ⟨confirmation, member⟩
  · rcases List.mem_append.mp member with early | late
    · exact .inl early
    · cases quiet _ late
  · rcases List.mem_append.mp member with early | late
    · exact .inr ⟨confirmation, early⟩
    · cases quiet _ late

/-- How the ids of the coordinator and of the jobs under way stand to the history. -/
structure Ledger (hydratedStatuses : FiniteMap Key Status) (past : List Event)
    (desk : AlarmStateCoordinator) (underway : Key → Option Job) : Prop where
  positive : 0 < desk.idCounter
  fresh : ∀ {id key status}, Issued past id key status → 0 < id ∧ id < desk.idCounter
  unique : ∀ {id key status otherKey otherStatus}, Issued past id key status →
    Issued past id otherKey otherStatus → key = otherKey ∧ status = otherStatus
  hydrated : ∀ {key}, desk.confirmedState.get? key = none → hydratedStatuses.get? key = none
  confirmed : ∀ {key status id}, desk.confirmedState.get? key = some (status, id) →
    Known hydratedStatuses past id key status
  latest : ∀ {key status id}, desk.speculativeState.get? key = some (status, id) →
    Known hydratedStatuses past id key status
  job : ∀ {key job}, underway key = some job →
    job.key = key ∧ Known hydratedStatuses past job.id key job.status
  pending : ∀ {id confirmation}, desk.pendingConfirmations.get? id = some confirmation →
    ∃ key status, .admitted id key status confirmation ∈ past
  settled : ∀ {key status id}, desk.confirmedState.get? key = some (status, id) →
    desk.pendingConfirmations.get? id = none
  owes : ∀ {key job}, underway key = some job →
    job.userInitiated = desk.pendingConfirmations.contains job.id

namespace Ledger

variable {desk : AlarmStateCoordinator} {underway : Key → Option Job}

theorem start (hydratedStatuses : FiniteMap Key Status) :
    Ledger hydratedStatuses [] (.new hydratedStatuses) (fun _ => none) where
  positive := Nat.one_pos
  fresh := by simp [Issued]
  unique := by simp [Issued]
  hydrated := by simp [AlarmStateCoordinator.new]
  confirmed := by
    intro key status id found
    simp only [AlarmStateCoordinator.new, FiniteMap.get?_mapValues, Option.map_eq_some_iff,
      Prod.mk.injEq] at found
    obtain ⟨hydrated, present, rfl, rfl⟩ := found
    exact .inl ⟨rfl, by simp [baseline, present]⟩
  latest := by simp [AlarmStateCoordinator.new]
  job := by simp
  pending := by simp [AlarmStateCoordinator.new]
  settled := by simp [AlarmStateCoordinator.new]
  owes := by simp

/-- An id that owes a confirmation was allocated. -/
theorem pending_issued (ledger : Ledger hydratedStatuses past desk underway) {id : Nat}
    {confirmation : Confirmation}
    (found : desk.pendingConfirmations.get? id = some confirmation) :
    ∃ key status, Issued past id key status := by
  obtain ⟨key, status, member⟩ := ledger.pending found
  exact ⟨key, status, .inr ⟨confirmation, member⟩⟩

/-- The reserved id owes no confirmation. -/
theorem reserved (ledger : Ledger hydratedStatuses past desk underway) :
    desk.pendingConfirmations.get? defaultHydratedId = none := by
  by_contra present
  obtain ⟨confirmation, found⟩ := Option.ne_none_iff_exists'.mp present
  obtain ⟨key, status, issued⟩ := ledger.pending_issued found
  have positive := (ledger.fresh issued).1
  simp [defaultHydratedId] at positive

/-- An id of two keys owes no confirmation. -/
theorem apart (ledger : Ledger hydratedStatuses past desk underway) {id : Nat} {key other : Key}
    {status otherStatus : Status} (known : Known hydratedStatuses past id key status)
    (otherKnown : Known hydratedStatuses past id other otherStatus) (different : other ≠ key) :
    desk.pendingConfirmations.get? id = none := by
  rcases known with ⟨rfl, _⟩ | issued
  · exact ledger.reserved
  · rcases otherKnown with ⟨rfl, _⟩ | otherIssued
    · exact ledger.reserved
    · exact absurd (ledger.unique otherIssued issued).1 different

/-- An id of a key names one status. -/
theorem names (ledger : Ledger hydratedStatuses past desk underway) {id : Nat} {key : Key}
    {status otherStatus : Status} (known : Known hydratedStatuses past id key status)
    (otherKnown : Known hydratedStatuses past id key otherStatus) : status = otherStatus := by
  rcases known with ⟨rfl, same⟩ | issued
  · rcases otherKnown with ⟨_, otherSame⟩ | otherIssued
    · rw [same, otherSame]
    · have positive := (ledger.fresh otherIssued).1
      simp [defaultHydratedId] at positive
  · rcases otherKnown with ⟨rfl, _⟩ | otherIssued
    · have positive := (ledger.fresh issued).1
      simp [defaultHydratedId] at positive
    · exact (ledger.unique issued otherIssued).2

/-- A known id is below the counter. -/
theorem below (ledger : Ledger hydratedStatuses past desk underway) {id : Nat} {key : Key}
    {status : Status} (known : Known hydratedStatuses past id key status) :
    id < desk.idCounter := by
  rcases known with ⟨rfl, _⟩ | issued
  · exact ledger.positive
  · exact (ledger.fresh issued).2

/-- Events that allocate nothing. -/
theorem append (ledger : Ledger hydratedStatuses past desk underway)
    (quiet : Unrecorded out) :
    Ledger hydratedStatuses (past ++ out) desk underway where
  positive := ledger.positive
  fresh := fun issued => ledger.fresh (issued.of_append quiet)
  unique := fun first second =>
    ledger.unique (first.of_append quiet) (second.of_append quiet)
  hydrated := ledger.hydrated
  confirmed := fun found => (ledger.confirmed found).append out
  latest := fun found => (ledger.latest found).append out
  job := fun found => ⟨(ledger.job found).1, (ledger.job found).2.append out⟩
  pending := by
    intro id confirmation found
    obtain ⟨key, status, member⟩ := ledger.pending found
    exact ⟨key, status, List.mem_append_left out member⟩
  settled := ledger.settled
  owes := ledger.owes

/-- Recording a status allocates the id of the counter to it. -/
theorem issued_record {otherKey : Key} {otherStatus : Status}
    {confirmation : Option Confirmation}
    (issued : Issued (past ++ [desk.recordEvent key status confirmation]) id otherKey otherStatus) :
    Issued past id otherKey otherStatus ∨
      (id = desk.idCounter ∧ otherKey = key ∧ otherStatus = status) := by
  rcases issued with member | ⟨other, member⟩
  · rcases List.mem_append.mp member with early | late
    · exact .inl (.inl early)
    · cases confirmation <;> simp_all [AlarmStateCoordinator.recordEvent]
  · rcases List.mem_append.mp member with early | late
    · exact .inl (.inr ⟨other, early⟩)
    · cases confirmation <;> simp_all [AlarmStateCoordinator.recordEvent]

/-- The id of the counter after a record. -/
theorem record_issued (desk : AlarmStateCoordinator) (past : List Event) (key : Key)
    (status : Status) (confirmation : Option Confirmation) :
    Issued (past ++ [desk.recordEvent key status confirmation]) desk.idCounter key status := by
  cases confirmation with
  | none => exact .inl (by simp [AlarmStateCoordinator.recordEvent])
  | some confirmation => exact .inr ⟨confirmation, by simp [AlarmStateCoordinator.recordEvent]⟩

theorem record (ledger : Ledger hydratedStatuses past desk underway) (key : Key)
    (status : Status) (confirmation : Option Confirmation) :
    Ledger hydratedStatuses (past ++ [desk.recordEvent key status confirmation])
      (desk.record key status confirmation) underway where
  positive := Nat.succ_pos _
  fresh := by
    intro id other otherStatus issued
    rw [AlarmStateCoordinator.record_idCounter]
    rcases issued_record issued with old | ⟨rfl, _, _⟩
    · have bounds := ledger.fresh old
      omega
    · have positive := ledger.positive
      omega
  unique := by
    intro id first firstStatus second secondStatus issued otherIssued
    rcases issued_record issued with old | ⟨rfl, rfl, rfl⟩
    · rcases issued_record otherIssued with otherOld | ⟨rfl, _, _⟩
      · exact ledger.unique old otherOld
      · have bounds := ledger.fresh old
        omega
    · rcases issued_record otherIssued with otherOld | ⟨_, rfl, rfl⟩
      · have bounds := ledger.fresh otherOld
        omega
      · exact ⟨rfl, rfl⟩
  hydrated := ledger.hydrated
  confirmed := fun found => (ledger.confirmed found).append _
  latest := by
    intro other otherStatus id found
    rw [AlarmStateCoordinator.record_speculativeState, FiniteMap.get?_insert] at found
    split at found
    · next same =>
        obtain ⟨rfl, rfl⟩ := Prod.mk.inj (Option.some.inj found)
        rw [same]
        exact .inr (record_issued desk past key status confirmation)
    · exact (ledger.latest found).append _
  job := fun found => ⟨(ledger.job found).1, (ledger.job found).2.append _⟩
  pending := by
    intro id other found
    rw [AlarmStateCoordinator.record_pending] at found
    split at found
    · next fresh =>
        refine ⟨key, status, ?_⟩
        rw [fresh.1, found]
        simp [AlarmStateCoordinator.recordEvent]
    · obtain ⟨otherKey, otherStatus, member⟩ := ledger.pending found
      exact ⟨otherKey, otherStatus, List.mem_append_left _ member⟩
  settled := by
    intro other otherStatus id found
    have bound := ledger.below (ledger.confirmed found)
    rw [AlarmStateCoordinator.record_pending, if_neg (by omega)]
    exact ledger.settled found
  owes := by
    intro other job found
    have bound := ledger.below (ledger.job found).2
    rw [ledger.owes found, FiniteMap.contains, FiniteMap.contains,
      AlarmStateCoordinator.record_pending, if_neg (by omega)]

/-- Answering the confirmation of a job; the jobs still under way have other ids, or owe
nothing. -/
theorem answer (ledger : Ledger hydratedStatuses past desk underway) (job : Job)
    {remaining : Key → Option Job}
    (within : ∀ {key other}, remaining key = some other → underway key = some other ∧
      (other.id = job.id → desk.pendingConfirmations.get? job.id = none)) :
    Ledger hydratedStatuses past (desk.settle job) remaining where
  positive := by
    rw [AlarmStateCoordinator.settle_idCounter]
    exact ledger.positive
  fresh := by
    rw [AlarmStateCoordinator.settle_idCounter]
    exact ledger.fresh
  unique := ledger.unique
  hydrated := by
    rw [AlarmStateCoordinator.settle_confirmedState]
    exact ledger.hydrated
  confirmed := by
    rw [AlarmStateCoordinator.settle_confirmedState]
    exact ledger.confirmed
  latest := by
    rw [AlarmStateCoordinator.settle_speculativeState]
    exact ledger.latest
  job := fun present => ledger.job (within present).1
  pending := by
    intro id confirmation present
    rw [AlarmStateCoordinator.settle_pending] at present
    split at present
    · cases present
    · exact ledger.pending present
  settled := by
    intro key status id present
    rw [AlarmStateCoordinator.settle_pending]
    split
    · rfl
    · exact ledger.settled (by simpa using present)
  owes := by
    intro key other present
    obtain ⟨under, free⟩ := within present
    rw [ledger.owes under, FiniteMap.contains, FiniteMap.contains,
      AlarmStateCoordinator.settle_pending]
    split
    · next same => rw [same, free same]
    · rfl

/-- Answering the confirmation of a job under way, whose lane is then open. -/
theorem settle (ledger : Ledger hydratedStatuses past desk underway) {job : Job}
    (found : underway job.key = some job) :
    Ledger hydratedStatuses past (desk.settle job) (Function.update underway job.key none) := by
  apply ledger.answer
  intro key other present
  rw [Function.update_apply] at present
  split at present
  · cases present
  · next different =>
      refine ⟨present, fun same => ?_⟩
      have known := (ledger.job present).2
      rw [same] at known
      exact ledger.apart known (ledger.job found).2 fun equal => different equal.symm

/-- Writing a job without a confirmation to the confirmed state. -/
theorem confirm (ledger : Ledger hydratedStatuses past desk underway) {job : Job}
    (known : Known hydratedStatuses past job.id job.key job.status)
    (answered : desk.pendingConfirmations.get? job.id = none) :
    Ledger hydratedStatuses past (desk.confirm job) underway where
  positive := ledger.positive
  fresh := ledger.fresh
  unique := ledger.unique
  hydrated := by
    intro key absent
    rw [AlarmStateCoordinator.confirm_confirmedState, FiniteMap.get?_insert] at absent
    split at absent
    · cases absent
    · exact ledger.hydrated absent
  confirmed := by
    intro key status id found
    rw [AlarmStateCoordinator.confirm_confirmedState, FiniteMap.get?_insert] at found
    split at found
    · next same =>
        obtain ⟨rfl, rfl⟩ := Prod.mk.inj (Option.some.inj found)
        rw [same]
        exact known
    · exact ledger.confirmed found
  latest := ledger.latest
  job := ledger.job
  pending := ledger.pending
  settled := by
    intro key status id found
    rw [AlarmStateCoordinator.confirm_confirmedState, FiniteMap.get?_insert] at found
    split at found
    · obtain ⟨_, rfl⟩ := Prod.mk.inj (Option.some.inj found)
      exact answered
    · exact ledger.settled found
  owes := ledger.owes

/-- Dropping a speculative entry. -/
theorem clear (ledger : Ledger hydratedStatuses past desk underway) (key : Key) :
    Ledger hydratedStatuses past (desk.clear key) underway :=
  { ledger with
    latest := by
      intro other status id found
      rw [AlarmStateCoordinator.clear_speculativeState, FiniteMap.get?_erase] at found
      split at found
      · cases found
      · exact ledger.latest found }

/-- Rolling a key back to its confirmed entry. -/
theorem converge (ledger : Ledger hydratedStatuses past desk underway) (key : Key) :
    Ledger hydratedStatuses past (desk.convergeToLastConfirmed key) underway :=
  { ledger with
    latest := by
      intro other status id found
      rw [AlarmStateCoordinator.converge_speculativeState, FiniteMap.get?_insert] at found
      split at found
      · next same =>
          subst same
          cases entry : desk.confirmedState.get? other with
          | none =>
              simp only [AlarmStateCoordinator.confirmedOrDefault, entry, Option.getD_none,
                Option.some.injEq, Prod.mk.injEq] at found
              obtain ⟨rfl, rfl⟩ := found
              exact .inl ⟨rfl, by simp [baseline, ledger.hydrated entry]⟩
          | some confirmed =>
              simp only [AlarmStateCoordinator.confirmedOrDefault, entry, Option.getD_some,
                Option.some.injEq] at found
              subst found
              exact ledger.confirmed entry
      · exact ledger.latest found }

/-- Dispatching the latest status of a key. -/
theorem dispatch (ledger : Ledger hydratedStatuses past desk underway) {key : Key} {job : Job}
    (next : desk.nextJob key = some job) :
    Ledger hydratedStatuses past desk (Function.update underway key (some job)) :=
  { ledger with
    job := by
      intro other found present
      rw [Function.update_apply] at present
      split at present
      · next same =>
          subst same
          obtain rfl := Option.some.inj present
          obtain ⟨⟨status, id⟩, entry, rfl⟩ := Option.map_eq_some_iff.mp next
          exact ⟨rfl, ledger.latest entry⟩
      · exact ledger.job present
    owes := by
      intro other found present
      rw [Function.update_apply] at present
      split at present
      · obtain rfl := Option.some.inj present
        obtain ⟨⟨status, id⟩, entry, rfl⟩ := Option.map_eq_some_iff.mp next
        rfl
      · exact ledger.owes present }

end Ledger

/-- Quiet events record nothing. -/
theorem quiet_unrecorded {desk : AlarmStateCoordinator} (quiet : ∀ event ∈ out, event.Quiet desk) :
    Unrecorded out := by
  intro event member
  exact (quiet event member).eq_none (fun _ _ => rfl) (fun _ => rfl) (fun _ => rfl) fun _ _ => rfl

theorem Stage.Move.unrecorded {stage next : Stage} {events : List Event}
    (move : Stage.Move key stage events next) : Unrecorded events := by
  cases move with
  | receive | advance | reject | attempt => exact .nil
  | answer | retry _ | deliver _ => exact .cons rfl .nil

namespace Lanes

/-- The job of each lane. -/
def underway (lanes : Lanes) (key : Key) : Option Job := (lanes.stage key).job?

variable {lanes next : Lanes}

theorem underway_update {reached : Stage}
    (stage : next.stage = Function.update lanes.stage key reached) :
    next.underway = Function.update lanes.underway key reached.job? := by
  funext other
  simp only [underway, stage, Function.update_apply]
  split <;> rfl

theorem underway_same {reached : Stage}
    (stage : next.stage = Function.update lanes.stage key reached)
    (same : reached.job? = (lanes.stage key).job?) : next.underway = lanes.underway := by
  rw [underway_update stage, same]
  exact Function.update_eq_self ..

theorem underway_report
    (each : ∀ key, next.stage key = lanes.stage key ∨
      ∃ job ok, lanes.stage key = .delivered job ok ∧ next.stage key = .settled job ok) :
    next.underway = lanes.underway := by
  funext key
  rcases each key with kept | ⟨job, ok, arrived, reached⟩
  · rw [underway, underway, kept]
  · rw [underway, underway, arrived, reached]
    rfl

theorem underway_settled {job : Job} {ok : Bool} (arrived : lanes.stage job.key = .settled job ok) :
    lanes.underway job.key = some job := by
  rw [underway, arrived]
  rfl

/-- A step of the lanes keeps the ledger. -/
theorem Step.ledger (step : lanes.Step out next)
    (ledger : Ledger hydratedStatuses past lanes.desk lanes.underway) :
    Ledger hydratedStatuses (past ++ out) next.desk next.underway := by
  cases step with
  | still quiet => exact ledger.append (quiet_unrecorded quiet)
  | @start key status confirmation before job _ decides quiet idle opens desk stage =>
      have early := ledger.append (quiet_unrecorded quiet)
      have recorded := early.record key status confirmation
      have dispatched := (recorded.dispatch opens).append
        (.cons rfl .nil : Unrecorded [.dispatched job])
      rw [desk, underway_update stage]
      simpa [Stage.job?] using dispatched
  | @displace key status confirmation before _ _ decides quiet under desk stage =>
      have early := ledger.append (quiet_unrecorded quiet)
      have recorded := early.record key status confirmation
      have same : next.underway = lanes.underway := by
        funext other
        rw [underway, underway, stage]
      rw [desk, same, ← List.append_assoc]
      exact recorded
  | travel move desk stage =>
      rw [desk, underway_same stage move.job?]
      exact ledger.append move.unrecorded
  | report desk each =>
      rw [desk, underway_report each, List.append_nil]
      exact ledger
  | @commitLast job status _ arrived latest desk stage =>
      have found := underway_settled arrived
      have settled := ledger.settle found
      have answered := lanes.desk.settle_answered job
      have written := (settled.clear job.key).confirm (ledger.job found).2 answered
      rw [desk, underway_update stage]
      exact written.append ((lanes.desk.resolve_unrecorded job _).append (.cons rfl .nil))
  | @commitNext job status id newJob _ arrived latest newer follows desk stage =>
      have found := underway_settled arrived
      have settled := ledger.settle found
      have answered := lanes.desk.settle_answered job
      have written := (settled.dispatch follows).confirm (ledger.job found).2 answered
      rw [desk, underway_update stage]
      rw [Function.update_idem] at written
      exact written.append ((lanes.desk.resolve_unrecorded job _).append (.cons rfl (.cons rfl .nil)))
  | @rollBack job status newJob _ arrived latest user follows desk stage =>
      have found := underway_settled arrived
      have rolled := (ledger.settle found).converge job.key
      have dispatched := rolled.dispatch follows
      rw [desk, underway_update stage]
      rw [Function.update_idem] at dispatched
      exact dispatched.append
        ((lanes.desk.resolve_unrecorded job _).append (.cons rfl (.cons rfl .nil)))
  | @redispatch job status id newJob _ arrived latest keeps follows desk stage =>
      have found := underway_settled arrived
      have dispatched := (ledger.settle found).dispatch follows
      rw [desk, underway_update stage]
      rw [Function.update_idem] at dispatched
      exact dispatched.append
        ((lanes.desk.resolve_unrecorded job _).append (.cons rfl (.cons rfl .nil)))

end Lanes

/-- After every run the ledger holds of the history and of the lanes the pipeline refines. -/
theorem Pipeline.ledger {admits : List Event → Pipeline → Action → Prop} {actions : List Action}
    {events : List Event} {final : Pipeline}
    (run : Pipeline.machine.Run admits (.start hydratedStatuses) actions events final) :
    ∃ lanes, Refines final lanes ∧
      Ledger hydratedStatuses events lanes.desk lanes.underway :=
  (Refines.initial hydratedStatuses).history run
    (fun past lanes => Ledger hydratedStatuses past lanes.desk lanes.underway)
    (Ledger.start hydratedStatuses) fun before step => step.ledger before

end AcornAlarms
