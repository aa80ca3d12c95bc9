import AcornAlarms.Lanes.Books
import AcornAlarms.Lanes.Order
import AcornAlarms.Lanes.Reference
import AcornAlarms.Properties.Answers
import AcornAlarms.Properties.Convergence

/-!
# The order of the published log

What a consumer of the topic reads about a device is in the order in which the coordinator
decided it. A status is repeated only by the rollback of a failed user action.
-/

namespace AcornAlarms

open Library

section

variable [Platform]

/-- The published job a stage has yet to bring to the coordinator. -/
def Stage.carried : Stage → List Job
  | delivered job true | settled job true => [job]
  | _ => []

theorem Stage.carried_status (stage : Stage) : stage.carried.map Job.status = stage.unwritten := by
  cases stage with
  | delivered job ok | settled job ok => cases ok <;> rfl
  | _ => rfl

theorem Stage.job?_of_carried {stage : Stage} {job : Job} (member : job ∈ stage.carried) :
    stage.job? = some job := by
  cases stage with
  | delivered other ok | settled other ok =>
      cases ok with
      | true =>
          obtain rfl := List.mem_singleton.mp member
          rfl
      | false => cases member
  | _ => cases member

theorem Stage.carried_cases (stage : Stage) :
    stage.carried = [] ∨ ∃ job, stage.carried = [job] := by
  unfold carried
  split
  · exact .inr ⟨_, rfl⟩
  · exact .inr ⟨_, rfl⟩
  · exact .inl rfl

theorem committedOf_append (key : Key) (past out : List Event) :
    committedOf key (past ++ out) = committedOf key past ++ committedOf key out :=
  List.filterMap_append

theorem mem_committedOf {key : Key} {past : List Event} {job : Job} :
    job ∈ committedOf key past ↔ .committed job ∈ past ∧ job.key = key := by
  rw [committedOf, List.mem_filterMap]
  constructor
  · rintro ⟨event, member, commits⟩
    cases event with
    | committed other =>
        simp only [Event.commit?, Option.ite_none_right_eq_some, Option.some.injEq] at commits
        obtain ⟨named, rfl⟩ := commits
        exact ⟨member, named⟩
    | _ => cases commits
  · rintro ⟨member, named⟩
    exact ⟨_, member, if_pos named⟩

/-- What is written for a key are the statuses of the jobs committed for it. -/
theorem writtenOf_eq_map (key : Key) (past : List Event) :
    writtenOf key past = (committedOf key past).map Job.status := by
  rw [writtenOf, committedOf, List.map_filterMap]
  refine List.filterMap_congr fun event _ => ?_
  cases event with
  | committed job =>
      by_cases named : job.key = key <;> simp [Event.write?, Event.commit?, named]
  | _ => rfl

/-- The status an event records for a key, under its id. -/
def Event.decision? (key : Key) : Event → Option (Nat × Status)
  | .recorded id other status | .admitted id other status _ =>
      if other = key then some (id, status) else none
  | _ => none

/-- The statuses recorded for a key, oldest first. -/
def decisionsOf (key : Key) (past : List Event) : List (Nat × Status) :=
  past.filterMap (Event.decision? key)

theorem decisionsOf_append (key : Key) (past out : List Event) :
    decisionsOf key (past ++ out) = decisionsOf key past ++ decisionsOf key out :=
  List.filterMap_append

theorem mem_decisionsOf {key : Key} {past : List Event} {id : Nat} {status : Status} :
    (id, status) ∈ decisionsOf key past ↔ Issued past id key status := by
  rw [decisionsOf, List.mem_filterMap]
  constructor
  · rintro ⟨event, member, decides⟩
    cases event with
    | recorded _ other _ =>
        simp only [Event.decision?, Option.ite_none_right_eq_some, Option.some.injEq,
          Prod.mk.injEq] at decides
        obtain ⟨rfl, rfl, rfl⟩ := decides
        exact .inl member
    | admitted _ other _ confirmation =>
        simp only [Event.decision?, Option.ite_none_right_eq_some, Option.some.injEq,
          Prod.mk.injEq] at decides
        obtain ⟨rfl, rfl, rfl⟩ := decides
        exact .inr ⟨confirmation, member⟩
    | _ => cases decides
  · rintro (recorded | ⟨confirmation, admitted⟩)
    · exact ⟨_, recorded, if_pos rfl⟩
    · exact ⟨_, admitted, if_pos rfl⟩

theorem Unrecorded.decisionsOf {events : List Event} (unrecorded : Unrecorded events) (key : Key) :
    decisionsOf key events = [] := by
  refine List.filterMap_eq_nil_iff.mpr fun event member => ?_
  have recordless := unrecorded event member
  cases event with
  | recorded | admitted => cases recordless
  | _ => rfl

namespace Lanes

variable {lanes next : Lanes} {past out : List Event} {key : Key}
  {hydratedStatuses : FiniteMap Key Status}

/-- To a key, a step decides on a status under the next id or on none. -/
theorem Step.decides_one (step : lanes.Step out next) (key : Key) :
    (decisionsOf key out = [] ∧ lanes.desk.idCounter ≤ next.desk.idCounter) ∨
      ∃ status, decisionsOf key out = [(lanes.desk.idCounter, status)] ∧
        lanes.desk.idCounter < next.desk.idCounter := by
  have decided : ∀ {before after : List Event} {other : Key} {status : Status}
      {confirmation : Option Confirmation}, (∀ event ∈ before, event.Quiet lanes.desk) →
      Unrecorded after → next.desk = lanes.desk.record other status confirmation →
      (decisionsOf key (before ++ lanes.desk.recordEvent other status confirmation :: after) = [] ∧
          lanes.desk.idCounter ≤ next.desk.idCounter) ∨
        ∃ found, decisionsOf key
            (before ++ lanes.desk.recordEvent other status confirmation :: after) =
              [(lanes.desk.idCounter, found)] ∧
          lanes.desk.idCounter < next.desk.idCounter := by
    intro before after other status confirmation quiet unrecorded desk
    have counter : next.desk.idCounter = lanes.desk.idCounter + 1 := by
      rw [desk, AlarmStateCoordinator.record_idCounter]
    have single : decisionsOf key (before ++
        lanes.desk.recordEvent other status confirmation :: after) =
          if other = key then [(lanes.desk.idCounter, status)] else [] := by
      rw [← List.singleton_append, decisionsOf_append, decisionsOf_append,
        Unrecorded.decisionsOf (quiet_unrecorded quiet), unrecorded.decisionsOf]
      by_cases same : other = key <;> cases confirmation <;>
        simp [AcornAlarms.decisionsOf, AlarmStateCoordinator.recordEvent, Event.decision?, same]
    rw [single]
    by_cases same : other = key
    · exact .inr ⟨status, if_pos same, by omega⟩
    · exact .inl ⟨if_neg same, by omega⟩
  have undecided : Unrecorded out → (decisionsOf key out = [] ∧
      lanes.desk.idCounter ≤ next.desk.idCounter) :=
    fun unrecorded => ⟨unrecorded.decisionsOf key, step.counter_le⟩
  cases step with
  | still quiet => exact .inl (undecided (quiet_unrecorded quiet))
  | start _ quiet _ _ desk _ => exact decided quiet (.cons rfl .nil) desk
  | displace _ quiet _ desk _ => exact decided quiet .nil desk
  | travel move _ _ => exact .inl (undecided move.unrecorded)
  | report _ _ => exact .inl (undecided .nil)
  | commitLast _ _ _ _ =>
      exact .inl (undecided ((lanes.desk.resolve_unrecorded _ _).append (.cons rfl .nil)))
  | commitNext _ _ _ _ _ _ | rollBack _ _ _ _ _ _ | redispatch _ _ _ _ _ _ =>
      exact .inl (undecided
        ((lanes.desk.resolve_unrecorded _ _).append (.cons rfl (.cons rfl .nil))))

/-- The decisions about a key are in the order of their ids, below the counter. -/
structure Numbered (past : List Event) (desk : AlarmStateCoordinator) (key : Key) : Prop where
  below : ∀ decision ∈ decisionsOf key past, decision.1 < desk.idCounter
  sorted : (decisionsOf key past).Pairwise fun earlier later => earlier.1 < later.1

theorem Numbered.step (numbered : Numbered past lanes.desk key) (step : lanes.Step out next) :
    Numbered (past ++ out) next.desk key := by
  have decided := decisionsOf_append key past out
  obtain ⟨nothing, grows⟩ | ⟨status, single, grows⟩ := step.decides_one key
  · rw [nothing, List.append_nil] at decided
    constructor
    · rw [decided]
      exact fun decision member => Nat.lt_of_lt_of_le (numbered.below decision member) grows
    · rw [decided]
      exact numbered.sorted
  · rw [single] at decided
    constructor
    · rw [decided]
      intro decision member
      obtain early | late := List.mem_append.mp member
      · exact Nat.lt_trans (numbered.below decision early) grows
      · rw [List.mem_singleton.mp late]
        exact grows
    · rw [decided, List.pairwise_append]
      refine ⟨numbered.sorted, List.pairwise_singleton _ _, fun earlier member later last => ?_⟩
      rw [List.mem_singleton.mp last]
      exact numbered.below earlier member

/-- The jobs whose status was published for a key, oldest first. -/
def log (lanes : Lanes) (key : Key) (past : List Event) : List Job :=
  committedOf key past ++ (lanes.stage key).carried

/-- To a key, a step commits its job under way or none. -/
theorem Step.commits_one (step : lanes.Step out next) (key : Key) :
    (committedOf key out = [] ∧
        next.desk.confirmedState.get? key = lanes.desk.confirmedState.get? key) ∨
      ∃ job, lanes.underway key = some job ∧ committedOf key out = [job] ∧
        next.desk.confirmedState.get? key = some (job.status, job.id) := by
  have nothing : writtenOf key out = [] → committedOf key out = [] := by
    intro written
    rw [writtenOf_eq_map] at written
    exact List.map_eq_nil_iff.mp written
  have single : ∀ {job : Job}, writtenOf key out = [job.status] → .committed job ∈ out →
      job.key = key → committedOf key out = [job] := by
    intro job written committed named
    have member : job ∈ committedOf key out := mem_committedOf.mpr ⟨committed, named⟩
    rw [writtenOf_eq_map] at written
    obtain ⟨only, found, -⟩ := List.map_eq_singleton_iff.mp written
    rw [found] at member ⊢
    rw [List.mem_singleton.mp member]
  rcases step.seen key with ⟨recorded, given, records⟩ | ⟨-, view⟩
  · refine .inl ⟨?_, by rw [records.desk, AlarmStateCoordinator.record_confirmedState]⟩
    refine List.eq_nil_iff_forall_not_mem.mpr fun job member => ?_
    obtain ⟨-, unrecorded, -, -⟩ := step.settles (.inr (mem_committedOf.mp member).1)
    have recordless := unrecorded _ records.reported
    rw [AlarmStateCoordinator.recordEvent_recordKey?] at recordless
    cases recordless
  · cases view with
    | stays _ _ confirmed written _ => exact .inl ⟨nothing written, confirmed⟩
    | commitLast arrived _ confirmed _ written committed _ =>
        exact .inr ⟨_, underway_arrived arrived,
          single written committed (lanes.owned (underway_arrived arrived)), confirmed⟩
    | commitNext arrived _ _ _ confirmed _ written _ committed _ =>
        exact .inr ⟨_, underway_arrived arrived,
          single written committed (lanes.owned (underway_arrived arrived)), confirmed⟩
    | fails _ _ _ _ confirmed _ _ _ written => exact .inl ⟨nothing written, confirmed⟩

/-- The published jobs of a key are there for good: a step adds those it publishes. -/
theorem Step.log_grows (step : lanes.Step out next) (key : Key) (past : List Event) :
    ∃ fresh, next.log key (past ++ out) = lanes.log key past ++ fresh ∧
      fresh.map Job.status = deliveredOf key out := by
  have balance := (step.balances key).log
  suffices grown : ∃ fresh, (lanes.stage key).carried ++ fresh =
      committedOf key out ++ (next.stage key).carried by
    obtain ⟨fresh, grown⟩ := grown
    refine ⟨fresh, ?_, ?_⟩
    · rw [log, log, committedOf_append, List.append_assoc, ← grown, List.append_assoc]
    · have statuses := congrArg (List.map Job.status) grown
      rw [List.map_append, List.map_append, Stage.carried_status, Stage.carried_status,
        ← writtenOf_eq_map] at statuses
      exact List.append_cancel_left (statuses.trans balance.symm)
  obtain ⟨nothing, _⟩ | ⟨job, under, single, _⟩ := step.commits_one key
  · obtain idle | ⟨job, carries⟩ := (lanes.stage key).carried_cases
    · exact ⟨(next.stage key).carried, by rw [idle, nothing]⟩
    · -- The job that is carried stays on its way.
      refine ⟨[], ?_⟩
      rw [nothing, List.append_nil, List.nil_append, carries]
      have under := Stage.job?_of_carried (carries ▸ List.mem_singleton_self job)
      rw [← Stage.carried_status, ← Stage.carried_status, writtenOf_eq_map, nothing, carries]
        at balance
      obtain ⟨status, confirmation, records⟩ | ⟨-, view⟩ := step.seen key
      · obtain ⟨idle, -⟩ | ⟨-, same⟩ := records.lane
        · rw [idle] at carries
          cases carries
        · rw [same, carries]
      · cases view with
        | stays kept _ _ _ _ =>
            obtain idle | ⟨other, later⟩ := (next.stage key).carried_cases
            · rw [idle] at balance
              cases balance
            · have same := Stage.job?_of_carried (later ▸ List.mem_singleton_self other)
              rw [← underway, kept, underway, under] at same
              rw [later, Option.some.inj same]
        | commitLast arrived _ _ _ _ committed _ | commitNext arrived _ _ _ _ _ _ _ committed _ =>
            have member := mem_committedOf.mpr
              ⟨committed, lanes.owned (underway_arrived arrived)⟩
            rw [nothing] at member
            cases member
        | fails arrived _ _ _ _ _ _ _ _ =>
            rw [arrived] at carries
            cases carries
  · have committed := mem_committedOf.mp (single ▸ List.mem_singleton_self job)
    have arrived := step.commits committed.1
    rw [committed.2] at arrived
    exact ⟨(next.stage key).carried, by rw [single, arrived]; rfl⟩

/-- The jobs committed for a key are in the order of their ids, none ahead of the confirmed one. -/
structure Logged (rel : Nat → Nat → Prop) (past : List Event) (lanes : Lanes) (key : Key) :
    Prop where
  behind : ∀ job ∈ committedOf key past, ∃ status id,
    lanes.desk.confirmedState.get? key = some (status, id) ∧ job.id ≤ id
  sorted : (committedOf key past).Pairwise fun earlier later => rel earlier.id later.id

variable {rel : Nat → Nat → Prop}

theorem Logged.start (rel : Nat → Nat → Prop) (hydratedStatuses : FiniteMap Key Status)
    (key : Key) : Logged rel [] (.start hydratedStatuses) key where
  behind := fun _ member => absurd member List.not_mem_nil
  sorted := .nil

/-- A job under way is ahead of the committed ones. -/
theorem Logged.ahead (logged : Logged rel past lanes key)
    (ahead : ∀ status id job, lanes.desk.confirmedState.get? key = some (status, id) →
      lanes.underway key = some job → rel id job.id)
    (passes : ∀ {first middle last}, first ≤ middle → rel middle last → rel first last)
    {job : Job} (under : lanes.underway key = some job) :
    ∀ earlier ∈ committedOf key past, rel earlier.id job.id := by
  intro earlier member
  obtain ⟨status, id, confirmed, least⟩ := logged.behind earlier member
  exact passes least (ahead status id job confirmed under)

theorem Logged.step (logged : Logged rel past lanes key) (step : lanes.Step out next)
    (ahead : ∀ status id job, lanes.desk.confirmedState.get? key = some (status, id) →
      lanes.underway key = some job → rel id job.id)
    (passes : ∀ {first middle last}, first ≤ middle → rel middle last → rel first last)
    (weakens : ∀ {first last}, rel first last → first ≤ last) :
    Logged rel (past ++ out) next key := by
  have committed := committedOf_append key past out
  obtain ⟨nothing, confirmed⟩ | ⟨job, under, single, confirmed⟩ := step.commits_one key
  · rw [nothing, List.append_nil] at committed
    refine ⟨?_, by rw [committed]; exact logged.sorted⟩
    rw [committed, confirmed]
    exact logged.behind
  · have before := logged.ahead ahead passes under
    rw [single] at committed
    refine ⟨?_, ?_⟩
    · rw [committed, confirmed]
      intro earlier member
      obtain early | late := List.mem_append.mp member
      · exact ⟨_, _, rfl, weakens (before earlier early)⟩
      · rw [List.mem_singleton.mp late]
        exact ⟨_, _, rfl, Nat.le_refl _⟩
    · rw [committed, List.pairwise_append]
      refine ⟨logged.sorted, List.pairwise_singleton _ _, fun earlier member later last => ?_⟩
      rw [List.mem_singleton.mp last]
      exact before earlier member

/-- The published jobs are in order with the one that is on its way. -/
theorem Logged.whole (logged : Logged rel past lanes key)
    (ahead : ∀ status id job, lanes.desk.confirmedState.get? key = some (status, id) →
      lanes.underway key = some job → rel id job.id)
    (passes : ∀ {first middle last}, first ≤ middle → rel middle last → rel first last) :
    (lanes.log key past).Pairwise fun earlier later => rel earlier.id later.id := by
  refine List.pairwise_append.mpr ⟨logged.sorted, ?_, ?_⟩
  · unfold Stage.carried
    split <;> simp
  · intro earlier member later last
    exact logged.ahead ahead passes (Stage.job?_of_carried last) earlier member

/-- The job under way has an id of its own, past the confirmed one. -/
structure Ahead (past : List Event) (lanes : Lanes) (key : Key) : Prop where
  confirmed : ∀ status id job, lanes.desk.confirmedState.get? key = some (status, id) →
    lanes.underway key = some job → id < job.id
  fresh : ∀ job, lanes.underway key = some job → 0 < job.id
  committed : ∀ job ∈ committedOf key past, 0 < job.id

theorem Ahead.step (ahead : Ahead past lanes key) (step : lanes.Step out next)
    (ordered : lanes.Ordered) (ledger : Ledger hydratedStatuses past lanes.desk lanes.underway)
    (unfailed : UnfailedOf key out) : Ahead (past ++ out) next key where
  confirmed := by
    intro status id job confirmed under
    rcases step.seen key with ⟨recorded, given, records⟩ | ⟨-, view⟩
    · rw [records.desk, AlarmStateCoordinator.record_confirmedState] at confirmed
      rcases records.underway under with same | fresh
      · exact ahead.confirmed status id job confirmed same
      · rw [fresh]
        exact ledger.below (ledger.confirmed confirmed)
    · cases view with
      | stays kept _ same _ _ =>
          exact ahead.confirmed status id job (same ▸ confirmed) (kept ▸ under)
      | commitLast _ _ _ stage _ _ _ =>
          rw [Lanes.underway, stage] at under
          cases under
      | commitNext arrived latest newer _ written stage _ _ _ _ =>
          rw [written] at confirmed
          obtain ⟨rfl, rfl⟩ := Prod.mk.inj (Option.some.inj confirmed)
          rw [Lanes.underway, stage] at under
          obtain rfl := Option.some.inj under
          exact Nat.lt_of_le_of_ne (ordered.latest (underway_arrived arrived) latest)
            (Ne.symm newer)
      | @fails failed _ other entry arrived latest chosen _ same stage _ failure _ =>
          rw [same] at confirmed
          rw [Lanes.underway, stage] at under
          obtain rfl := Option.some.inj under
          have automated := unfailed failed ((failure failed).mpr rfl)
            (lanes.owned (underway_arrived arrived))
          rw [if_neg fun both => by simp [automated] at both] at chosen
          rw [chosen]
          exact Nat.lt_of_lt_of_le
            (ahead.confirmed status id failed confirmed (underway_arrived arrived))
            (ordered.latest (underway_arrived arrived) latest)
  fresh := by
    intro job under
    rcases step.seen key with ⟨recorded, given, records⟩ | ⟨-, view⟩
    · rcases records.underway under with same | fresh
      · exact ahead.fresh job same
      · rw [fresh]
        exact ledger.positive
    · cases view with
      | stays kept _ _ _ _ => exact ahead.fresh job (kept ▸ under)
      | commitLast _ _ _ stage _ _ _ =>
          rw [Lanes.underway, stage] at under
          cases under
      | commitNext arrived latest _ _ _ stage _ _ _ _ =>
          rw [Lanes.underway, stage] at under
          obtain rfl := Option.some.inj under
          exact Nat.lt_of_lt_of_le (ahead.fresh _ (underway_arrived arrived))
            (ordered.latest (underway_arrived arrived) latest)
      | @fails failed _ other entry arrived latest chosen _ _ stage _ failure _ =>
          rw [Lanes.underway, stage] at under
          obtain rfl := Option.some.inj under
          have automated := unfailed failed ((failure failed).mpr rfl)
            (lanes.owned (underway_arrived arrived))
          rw [if_neg fun both => by simp [automated] at both] at chosen
          rw [chosen]
          exact Nat.lt_of_lt_of_le (ahead.fresh failed (underway_arrived arrived))
            (ordered.latest (underway_arrived arrived) latest)
  committed := by
    intro job member
    rw [committedOf_append] at member
    obtain early | late := List.mem_append.mp member
    · exact ahead.committed job early
    · obtain ⟨committed, rfl⟩ := mem_committedOf.mp late
      exact ahead.fresh job (underway_settled (step.commits committed))

theorem Ahead.start (hydratedStatuses : FiniteMap Key Status) (key : Key) :
    Ahead [] (.start hydratedStatuses) key where
  confirmed := fun _ _ _ _ under => by simp [underway, Lanes.start, Stage.job?] at under
  fresh := fun _ under => by simp [underway, Lanes.start, Stage.job?] at under
  committed := fun _ member => absurd member List.not_mem_nil

/-- Every committed job stands for a decision of its key. -/
def Booked (hydratedStatuses : FiniteMap Key Status) (past : List Event) : Prop :=
  ∀ job, .committed job ∈ past → Known hydratedStatuses past job.id job.key job.status

theorem Step.booked (step : lanes.Step out next)
    (ledger : Ledger hydratedStatuses past lanes.desk lanes.underway)
    (booked : Booked hydratedStatuses past) : Booked hydratedStatuses (past ++ out) := by
  intro job member
  obtain early | late := List.mem_append.mp member
  · exact (booked job early).append out
  · exact (ledger.job (underway_settled (step.commits late))).2.append out

end Lanes

/-- What the history of a run says of the published log. -/
theorem Pipeline.logged {hydratedStatuses : FiniteMap Key Status}
    {admits : List Event → Pipeline → Action → Prop} {actions : List Action} {events : List Event}
    {final : Pipeline} (run : machine.Run admits (start hydratedStatuses) actions events final) :
    ∃ lanes : Lanes, Journal hydratedStatuses events lanes ∧
      Ledger hydratedStatuses events lanes.desk lanes.underway ∧
      Lanes.Booked hydratedStatuses events ∧
      (lanes.Ordered ∧ ∀ key, Lanes.Logged (· ≤ ·) events lanes key) ∧
      (∀ key, Lanes.Numbered events lanes.desk key) ∧
      (∀ key, UnfailedOf key events →
        Lanes.Ahead events lanes key ∧ Lanes.Logged (· < ·) events lanes key) := by
  obtain ⟨lanes, -, facts⟩ := (Refines.initial hydratedStatuses).history run.forget
    (fun past lanes => Journal hydratedStatuses past lanes ∧
      Ledger hydratedStatuses past lanes.desk lanes.underway ∧
      Lanes.Booked hydratedStatuses past ∧
      (lanes.Ordered ∧ ∀ key, Lanes.Logged (· ≤ ·) past lanes key) ∧
      (∀ key, Lanes.Numbered past lanes.desk key) ∧
      (∀ key, UnfailedOf key past →
        Lanes.Ahead past lanes key ∧ Lanes.Logged (· < ·) past lanes key))
    ⟨Journal.start hydratedStatuses, Ledger.start hydratedStatuses,
      fun _ member => absurd member List.not_mem_nil,
      ⟨Lanes.start_ordered hydratedStatuses, fun key => .start _ hydratedStatuses key⟩,
      fun _ => ⟨fun _ member => absurd member List.not_mem_nil, .nil⟩,
      fun key _ => ⟨.start hydratedStatuses key, .start _ hydratedStatuses key⟩⟩
    (by
      rintro past lanes out next ⟨journal, ledger, booked, ⟨ordered, logged⟩, numbered, fresh⟩ step
      refine ⟨journal.step step, step.ledger ledger, step.booked ledger booked,
        ⟨step.ordered ordered ledger, fun key => ?_⟩, fun key => (numbered key).step step,
        fun key unfailed => ?_⟩
      · exact (logged key).step step (fun _ _ _ => ordered.confirmed) Nat.le_trans id
      · obtain ⟨ahead, increasing⟩ := fresh key fun job member =>
          unfailed job (List.mem_append_left _ member)
        exact ⟨ahead.step step ordered ledger fun job member =>
            unfailed job (List.mem_append_right _ member),
          increasing.step step ahead.confirmed Nat.lt_of_le_of_lt Nat.le_of_lt⟩)
  exact ⟨lanes, facts⟩

namespace Service

/-- In every run of the service, what is published for a device are statuses it was decided to
have, in the order of the decisions, or, before any of them and under the reserved id, the status
it was hydrated with, or the default one, that a rollback publishes again. Without a failed user
action no decision is published twice and nothing else is published. -/
theorem published_in_order {config : QueueCapacityConfig} {hydratedStatuses : FiniteMap Key Status}
    {admits : List Event → Service → Action → Prop} {actions : List Action} {events : List Event}
    {self : Service}
    (run : (machine config).Run admits (start hydratedStatuses) actions events self) (key : Key) :
    ∃ jobs : List Job, deliveredOf key (tasks events) = jobs.map Job.status ∧
      (∀ job ∈ jobs, Known hydratedStatuses (tasks events) job.id key job.status) ∧
      jobs.Pairwise (fun earlier later => earlier.id ≤ later.id) ∧
      (UnfailedOf key (tasks events) →
        (jobs.map fun job => (job.id, job.status)).Sublist (decisionsOf key (tasks events))) := by
  obtain ⟨_, runs⟩ := tasks_run run
  obtain ⟨lanes, journal, ledger, booked, ⟨ordered, logged⟩, numbered, fresh⟩ :=
    Pipeline.logged runs
  have known : ∀ job ∈ lanes.log key (tasks events),
      Known hydratedStatuses (tasks events) job.id key job.status := by
    intro job member
    obtain committed | carried := List.mem_append.mp member
    · obtain ⟨reported, rfl⟩ := mem_committedOf.mp committed
      exact booked job reported
    · exact (ledger.job (Stage.job?_of_carried carried)).2
  refine ⟨lanes.log key (tasks events), ?_, known, ?_, fun unfailed => ?_⟩
  · rw [journal.log, writtenOf_eq_map, Lanes.log, List.map_append, Stage.carried_status]
  · exact (logged key).whole (fun _ _ _ => ordered.confirmed) Nat.le_trans
  · obtain ⟨ahead, increasing⟩ := fresh key unfailed
    have sorted := increasing.whole ahead.confirmed Nat.lt_of_le_of_lt
    refine sublist_of_increasing (List.pairwise_map.mpr sorted) (numbered key).sorted ?_
    intro decision member
    obtain ⟨job, logs, rfl⟩ := List.mem_map.mp member
    have positive : 0 < job.id := by
      obtain committed | carried := List.mem_append.mp logs
      · exact ahead.committed job committed
      · exact ahead.fresh job (Stage.job?_of_carried carried)
    obtain ⟨reserved, -⟩ | issued := known job logs
    · rw [reserved] at positive
      cases positive
    · exact mem_decisionsOf.mpr issued

end Service

end

section

attribute [local instance] asciiPlatform

namespace Service

/-- The bypass an operator was answered is the one record of the topic. -/
theorem published_in_order_bypass : ∃ (final : Service) (events : List Event) (jobs : List Job),
    (machine narrow).Run Machine.Every (start .empty) bypassAnswered events final ∧
      deliveredOf pump (tasks events) = jobs.map Job.status ∧ jobs.length = 1 ∧
      (jobs.map fun job => (job.id, job.status)).Sublist (decisionsOf pump (tasks events)) := by
  obtain ⟨final, events, run, check⟩ := run_of_check narrow bypassAnswered
    (fun _ events => decide (automatedFailures (tasks events) ∧
      (deliveredOf pump (tasks events)).length = 1)) (by decide)
  obtain ⟨automated, single⟩ := of_decide_eq_true check
  have unfailed : UnfailedOf pump (tasks events) := by
    intro job member _
    simpa using List.all_eq_true.mp automated _ member
  obtain ⟨jobs, published, _, _, decided⟩ := published_in_order run pump
  refine ⟨final, events, jobs, run, published, ?_, decided unfailed⟩
  rw [published, List.length_map] at single
  exact single

end Service

end

end AcornAlarms
