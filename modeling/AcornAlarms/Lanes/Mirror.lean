import AcornAlarms.Lanes.Arrivals
import Mathlib.Data.Set.Function
import Mathlib.Order.Interval.Set.Defs

/-!
# A key on its own coordinator

The coordinator of all keys treats a key as a coordinator that hears of no other key would,
but for the ids: those of the key are in the same order, with the ids of other keys in
between.
-/

namespace AcornAlarms

open Library

variable [Platform]

section Renumbering

variable (renumbering : Nat → Nat)

/-- The job under another id. -/
def Job.renumber (job : Job) : Job := { job with id := renumbering job.id }

/-- The entry under another id. -/
def renumberEntry (entry : Status × Nat) : Status × Nat := (entry.1, renumbering entry.2)

/-- The event under other ids. -/
def Event.renumber : Event → Event
  | .recorded id key status => .recorded (renumbering id) key status
  | .admitted id key status confirmation => .admitted (renumbering id) key status confirmation
  | .resolved id key confirmation answer => .resolved (renumbering id) key confirmation answer
  | .dispatched job => .dispatched (job.renumber renumbering)
  | .committed job => .committed (job.renumber renumbering)
  | .failed job => .failed (job.renumber renumbering)
  | event => event

end Renumbering

/-- The ids in an event. -/
def Event.ids : Event → List Nat
  | .recorded id _ _ | .admitted id _ _ _ | .resolved id _ _ _ => [id]
  | .dispatched job | .committed job | .failed job => [job.id]
  | _ => []

namespace Event

variable {first second : Nat → Nat} {event : Event}

theorem renumber_congr (same : ∀ id ∈ event.ids, first id = second id) :
    event.renumber first = event.renumber second := by
  cases event <;> simp_all [renumber, ids, Job.renumber]

theorem renumber_renumber (event : Event) :
    (event.renumber first).renumber second = event.renumber fun id => second (first id) := by
  cases event <;> rfl

theorem ids_renumber (event : Event) : (event.renumber first).ids = event.ids.map first := by
  cases event <;> rfl

@[simp] theorem about_renumber (key : Key) (event : Event) :
    (event.renumber first).about key = event.about key := by
  cases event <;> rfl

end Event

/-- Every id in the events is below a bound. -/
def Bounded (bound : Nat) (events : List Event) : Prop :=
  ∀ event ∈ events, ∀ id ∈ event.ids, id < bound

namespace Bounded

variable {bound : Nat} {first second : List Event}

theorem append (early : Bounded bound first) (late : Bounded bound second) :
    Bounded bound (first ++ second) := by
  intro event member
  exact (List.mem_append.mp member).elim (early event) (late event)

theorem mono (bounded : Bounded bound first) {larger : Nat} (le : bound ≤ larger) :
    Bounded larger first :=
  fun event member id inside => Nat.lt_of_lt_of_le (bounded event member id inside) le

/-- Bounded events do not see a renumbering beyond the bound. -/
theorem renumber_congr (bounded : Bounded bound first) {one other : Nat → Nat}
    (same : ∀ id < bound, one id = other id) :
    first.map (Event.renumber one) = first.map (Event.renumber other) :=
  List.map_congr_left fun event member =>
    Event.renumber_congr fun id inside => same id (bounded event member id inside)

theorem committed {job : Job} (old : job.id < bound) : Bounded bound [.committed job] := by
  simpa [Bounded, Event.ids] using old

theorem failed {job : Job} (old : job.id < bound) : Bounded bound [.failed job] := by
  simpa [Bounded, Event.ids] using old

end Bounded

theorem AlarmStateCoordinator.settleEvents_bounded (self : AlarmStateCoordinator) (job : Job)
    (answer : Except UpdateError Unit) {bound : Nat} (old : job.id < bound) :
    Bounded bound (self.settleEvents job answer) := by
  unfold settleEvents resolve
  split
  · simpa [Bounded, Event.ids] using old
  · simp [Bounded]

/-- A coordinator that serves a key alone sees the key as the coordinator does. -/
structure Mirror (key : Key) (renumbering : Nat → Nat) (desk solo : AlarmStateCoordinator) :
    Prop where
  reserved : renumbering defaultHydratedId = defaultHydratedId
  positive : 0 < solo.idCounter
  ordered : StrictMonoOn renumbering (Set.Iio solo.idCounter)
  below : ∀ id < solo.idCounter, renumbering id < desk.idCounter
  latest : desk.speculativeState.get? key =
    (solo.speculativeState.get? key).map (renumberEntry renumbering)
  confirmed : desk.confirmedState.get? key =
    (solo.confirmedState.get? key).map (renumberEntry renumbering)
  pending : ∀ id < solo.idCounter,
    desk.pendingConfirmations.get? (renumbering id) = solo.pendingConfirmations.get? id
  fresh : ∀ id, solo.idCounter ≤ id → solo.pendingConfirmations.get? id = none
  latestBelow : ∀ {status id}, solo.speculativeState.get? key = some (status, id) →
    id < solo.idCounter
  confirmedBelow : ∀ {status id}, solo.confirmedState.get? key = some (status, id) →
    id < solo.idCounter

namespace Mirror

variable {key other : Key} {renumbering : Nat → Nat} {desk solo : AlarmStateCoordinator}

/-- Ids of the key are told apart. -/
theorem injective (mirror : Mirror key renumbering desk solo) {first second : Nat}
    (firstBelow : first < solo.idCounter) (secondBelow : second < solo.idCounter) :
    renumbering first = renumbering second ↔ first = second :=
  Set.InjOn.eq_iff mirror.ordered.injOn firstBelow secondBelow

/-- Both coordinators know the same latest status. -/
theorem getLatestStatus (mirror : Mirror key renumbering desk solo) :
    desk.getLatestStatus key = solo.getLatestStatus key := by
  rw [AlarmStateCoordinator.getLatestStatus, AlarmStateCoordinator.getLatestStatus, mirror.latest,
    mirror.confirmed]
  cases solo.speculativeState.get? key with
  | some entry => rfl
  | none => cases solo.confirmedState.get? key <;> rfl

/-- Both coordinators dispatch the same job, user flag included. -/
theorem nextJob (mirror : Mirror key renumbering desk solo) :
    desk.nextJob key = (solo.nextJob key).map (Job.renumber renumbering) := by
  rw [AlarmStateCoordinator.nextJob, AlarmStateCoordinator.nextJob, mirror.latest]
  cases found : solo.speculativeState.get? key with
  | none => rfl
  | some entry =>
      obtain ⟨status, id⟩ := entry
      have owed := mirror.pending id (mirror.latestBelow found)
      simp [renumberEntry, Job.renumber, FiniteMap.contains, owed]

/-- The job dispatched next has an id of the key. -/
theorem nextJob_below (mirror : Mirror key renumbering desk solo) {job : Job}
    (next : solo.nextJob key = some job) : job.id < solo.idCounter := by
  obtain ⟨⟨status, id⟩, found, rfl⟩ := Option.map_eq_some_iff.mp next
  exact mirror.latestBelow found

/-- Both coordinators roll back to the same entry. -/
theorem confirmedOrDefault (mirror : Mirror key renumbering desk solo) :
    desk.confirmedOrDefault key = renumberEntry renumbering (solo.confirmedOrDefault key) := by
  rw [AlarmStateCoordinator.confirmedOrDefault, AlarmStateCoordinator.confirmedOrDefault,
    mirror.confirmed]
  cases solo.confirmedState.get? key with
  | some entry => rfl
  | none => simp [renumberEntry, mirror.reserved]

/-- Recording a status of the key extends the renumbering by the two counters. -/
theorem record (mirror : Mirror key renumbering desk solo)
    (free : desk.pendingConfirmations.get? desk.idCounter = none) (status : Status)
    (confirmation : Option Confirmation) :
    Mirror key (Function.update renumbering solo.idCounter desk.idCounter)
      (desk.record key status confirmation) (solo.record key status confirmation) := by
  have kept : ∀ id < solo.idCounter,
      Function.update renumbering solo.idCounter desk.idCounter id = renumbering id :=
    fun id less => Function.update_of_ne (Nat.ne_of_lt less) ..
  have entries : ∀ {entry : Option (Status × Nat)},
      (∀ status id, entry = some (status, id) → id < solo.idCounter) →
      entry.map (renumberEntry renumbering) =
        entry.map (renumberEntry (Function.update renumbering solo.idCounter desk.idCounter)) := by
    rintro (_ | ⟨status, id⟩) bounded
    · rfl
    · simp [renumberEntry, kept id (bounded status id rfl)]
  constructor
  case reserved => rw [kept defaultHydratedId mirror.positive, mirror.reserved]
  case positive => exact Nat.succ_pos _
  case ordered =>
    intro first firstBelow second secondBelow less
    simp only [AlarmStateCoordinator.record_idCounter, Set.mem_Iio] at firstBelow secondBelow
    have firstOld : first < solo.idCounter := by omega
    rw [kept first firstOld]
    by_cases last : second = solo.idCounter
    · rw [last, Function.update_self]
      exact mirror.below first firstOld
    · have secondOld : second < solo.idCounter := by omega
      rw [kept second secondOld]
      exact mirror.ordered firstOld secondOld less
  case below =>
    intro id less
    simp only [AlarmStateCoordinator.record_idCounter] at less ⊢
    by_cases last : id = solo.idCounter
    · rw [last, Function.update_self]
      omega
    · rw [kept id (by omega)]
      have bound := mirror.below id (by omega)
      omega
  case latest => simp [renumberEntry]
  case confirmed =>
    rw [AlarmStateCoordinator.record_confirmedState, AlarmStateCoordinator.record_confirmedState,
      mirror.confirmed]
    exact entries fun _ _ found => mirror.confirmedBelow found
  case pending =>
    intro id less
    simp only [AlarmStateCoordinator.record_idCounter] at less
    rw [AlarmStateCoordinator.record_pending, AlarmStateCoordinator.record_pending]
    by_cases last : id = solo.idCounter
    · rw [last, Function.update_self, free, mirror.fresh _ (Nat.le_refl _)]
      simp
    · have old : id < solo.idCounter := by omega
      have bound := mirror.below id old
      rw [kept id old, if_neg (by omega), if_neg (by omega), mirror.pending id old]
  case fresh =>
    intro id least
    simp only [AlarmStateCoordinator.record_idCounter] at least
    rw [AlarmStateCoordinator.record_pending, if_neg (by omega)]
    exact mirror.fresh id (by omega)
  case latestBelow =>
    intro status id found
    rw [AlarmStateCoordinator.record_speculativeState, FiniteMap.get?_insert_self] at found
    obtain ⟨_, rfl⟩ := Prod.mk.inj (Option.some.inj found)
    exact Nat.lt_succ_self _
  case confirmedBelow =>
    intro status id found
    exact Nat.lt_succ_of_lt (mirror.confirmedBelow found)

/-- Recording a status of another key does not concern the key. -/
theorem record_other (mirror : Mirror key renumbering desk solo) (different : key ≠ other)
    (status : Status) (confirmation : Option Confirmation) :
    Mirror key renumbering (desk.record other status confirmation) solo :=
  { mirror with
    below := fun id less => Nat.lt_succ_of_lt (mirror.below id less)
    latest := by
      rw [AlarmStateCoordinator.record_speculativeState, FiniteMap.get?_insert_of_ne _ _ different,
        mirror.latest]
    pending := by
      intro id less
      have bound := mirror.below id less
      rw [AlarmStateCoordinator.record_pending, if_neg (by omega), mirror.pending id less] }

/-- Answering the confirmation of a job of the key. -/
theorem settle (mirror : Mirror key renumbering desk solo) {job : Job}
    (old : job.id < solo.idCounter) :
    Mirror key renumbering (desk.settle (job.renumber renumbering)) (solo.settle job) where
  reserved := mirror.reserved
  positive := by simpa using mirror.positive
  ordered := by simpa using mirror.ordered
  below := by simpa using mirror.below
  latest := by simpa using mirror.latest
  confirmed := by simpa using mirror.confirmed
  pending := by
    intro id less
    rw [AlarmStateCoordinator.settle_idCounter] at less
    have same := mirror.injective less old
    simp only [AlarmStateCoordinator.settle_pending, Job.renumber, same, mirror.pending id less]
  fresh := by
    intro id least
    rw [AlarmStateCoordinator.settle_idCounter] at least
    rw [AlarmStateCoordinator.settle_pending, mirror.fresh id least, ite_self]
  latestBelow := by
    simp only [AlarmStateCoordinator.settle_speculativeState, AlarmStateCoordinator.settle_idCounter]
    exact mirror.latestBelow
  confirmedBelow := by
    simp only [AlarmStateCoordinator.settle_confirmedState, AlarmStateCoordinator.settle_idCounter]
    exact mirror.confirmedBelow

/-- Answering the confirmation of a job of another key does not concern the key. -/
theorem settle_other (mirror : Mirror key renumbering desk solo) {job : Job}
    (apart : ∀ id < solo.idCounter, renumbering id = job.id →
      desk.pendingConfirmations.get? job.id = none) :
    Mirror key renumbering (desk.settle job) solo :=
  { mirror with
    below := by simpa using mirror.below
    latest := by simpa using mirror.latest
    confirmed := by simpa using mirror.confirmed
    pending := by
      intro id less
      rw [AlarmStateCoordinator.settle_pending, ← mirror.pending id less]
      split
      · next same => rw [same, apart id less same]
      · rfl }

/-- The answer to the confirmation of a job of the key. -/
theorem settleEvents (mirror : Mirror key renumbering desk solo) {job : Job}
    (old : job.id < solo.idCounter) (answer : Except UpdateError Unit) :
    desk.settleEvents (job.renumber renumbering) answer =
      (solo.settleEvents job answer).map (Event.renumber renumbering) := by
  have owed := mirror.pending job.id old
  unfold AlarmStateCoordinator.settleEvents AlarmStateCoordinator.resolve
  rw [Job.renumber, owed]
  cases solo.pendingConfirmations.get? job.id <;> rfl

/-- Rolling back. -/
theorem converge (mirror : Mirror key renumbering desk solo) :
    Mirror key renumbering (desk.convergeToLastConfirmed key) (solo.convergeToLastConfirmed key) :=
  { mirror with
    latest := by
      simp only [AlarmStateCoordinator.converge_speculativeState, FiniteMap.get?_insert_self,
        Option.map_some, mirror.confirmedOrDefault]
    latestBelow := by
      intro status id found
      rw [AlarmStateCoordinator.converge_speculativeState, FiniteMap.get?_insert_self,
        AlarmStateCoordinator.confirmedOrDefault, Option.some.injEq] at found
      cases entry : solo.confirmedState.get? key with
      | none =>
          rw [entry, Option.getD_none] at found
          obtain ⟨_, rfl⟩ := Prod.mk.inj found
          exact mirror.positive
      | some confirmed =>
          rw [entry, Option.getD_some] at found
          subst found
          exact mirror.confirmedBelow entry }

theorem converge_other (mirror : Mirror key renumbering desk solo) (different : key ≠ other) :
    Mirror key renumbering (desk.convergeToLastConfirmed other) solo :=
  { mirror with
    latest := by
      rw [AlarmStateCoordinator.converge_speculativeState,
        FiniteMap.get?_insert_of_ne _ _ different, mirror.latest] }

/-- Dropping the speculative entry. -/
theorem clear (mirror : Mirror key renumbering desk solo) :
    Mirror key renumbering (desk.clear key) (solo.clear key) :=
  { mirror with
    latest := by simp
    latestBelow := by simp }

theorem clear_other (mirror : Mirror key renumbering desk solo) (different : key ≠ other) :
    Mirror key renumbering (desk.clear other) solo :=
  { mirror with
    latest := by
      rw [AlarmStateCoordinator.clear_speculativeState, FiniteMap.get?_erase_of_ne _ different,
        mirror.latest] }

/-- Writing a job to the confirmed state. -/
theorem confirm (mirror : Mirror key renumbering desk solo) {job : Job} (named : job.key = key)
    (old : job.id < solo.idCounter) :
    Mirror key renumbering (desk.confirm (job.renumber renumbering)) (solo.confirm job) :=
  { mirror with
    confirmed := by
      subst named
      simp [Job.renumber, renumberEntry]
    confirmedBelow := by
      intro status id found
      subst named
      rw [AlarmStateCoordinator.confirm_confirmedState, FiniteMap.get?_insert_self] at found
      obtain ⟨_, rfl⟩ := Prod.mk.inj (Option.some.inj found)
      exact old }

theorem confirm_other (mirror : Mirror key renumbering desk solo) {job : Job}
    (different : key ≠ job.key) : Mirror key renumbering (desk.confirm job) solo :=
  { mirror with
    confirmed := by
      rw [AlarmStateCoordinator.confirm_confirmedState, FiniteMap.get?_insert_of_ne _ _ different,
        mirror.confirmed] }

/-- An arrival of another key does not concern the key. -/
theorem receive_other (mirror : Mirror key renumbering desk solo) {arrival : Arrival}
    (different : key ≠ arrival.key) {underway : Option Job}
    (owned : ∀ job, underway = some job → job.key = arrival.key ∧
      (desk.speculativeState.get? job.key).isSome ∧
      ∀ id < solo.idCounter, renumbering id = job.id →
        desk.pendingConfirmations.get? job.id = none) :
    Mirror key renumbering (desk.receive underway arrival).coordinator solo := by
  cases arrival with
  | update status =>
      simp only [AlarmStateCoordinator.receive, AlarmStateCoordinator.handleAutomatedUpdate_eq]
      split
      · exact mirror.record_other different status none
      · exact mirror
  | request other action user confirmation now =>
      have apart : key ≠ other := different
      simp only [AlarmStateCoordinator.receive, AlarmStateCoordinator.handleUserUpdate_eq]
      split
      · exact mirror.record_other apart (buildUserStatus other action user now) (some confirmation)
      · exact mirror
  | outcome other committed =>
      cases underway with
      | none => exact mirror
      | some job =>
          obtain ⟨rfl, busy, apart⟩ := owned job rfl
          obtain ⟨⟨status, id⟩, found⟩ := Option.isSome_iff_exists.mp busy
          have settled := mirror.settle_other apart
          cases committed with
          | true =>
              by_cases latest : id = job.id
              · subst latest
                simp only [AlarmStateCoordinator.receive, Job.outcome,
                  AlarmStateCoordinator.reconcileJobOutcome, desk.reconcileSuccess_last job found]
                exact (settled.clear_other different).confirm_other different
              · simp only [AlarmStateCoordinator.receive, Job.outcome,
                  AlarmStateCoordinator.reconcileJobOutcome,
                  desk.reconcileSuccess_next job found latest]
                exact settled.confirm_other different
          | false =>
              simp only [AlarmStateCoordinator.receive, Job.outcome,
                AlarmStateCoordinator.reconcileJobOutcome, desk.reconcileFailure_eq job found]
              split
              · exact settled.converge_other different
              · exact settled

/-- What an arrival of the key does to both coordinators. -/
structure Follows (key : Key) (renumbering : Nat → Nat) (handled own : Handled) (bound : Nat) :
    Prop where
  mirror : Mirror key renumbering handled.coordinator own.coordinator
  events : handled.events = own.events.map (Event.renumber renumbering)
  bounded : Bounded own.coordinator.idCounter own.events
  grows : bound ≤ own.coordinator.idCounter
  issues : ∀ id, bound ≤ id → id < own.coordinator.idCounter →
    ∃ status, Issued own.events id key status

/-- An accepted status is recorded and dispatched by both. -/
theorem recorded (mirror : Mirror key renumbering desk solo)
    (free : desk.pendingConfirmations.get? desk.idCounter = none) (status : Status)
    (confirmation : Option Confirmation) :
    Follows key (Function.update renumbering solo.idCounter desk.idCounter)
      (desk.recorded key status confirmation) (solo.recorded key status confirmation)
      solo.idCounter := by
  have after := mirror.record free status confirmation
  have idle : (desk.speculativeState.get? key).isNone = (solo.speculativeState.get? key).isNone := by
    rw [mirror.latest, Option.isNone_map]
  refine ⟨after, ?_, ?_, Nat.le_succ _, ?_⟩
  · simp only [AlarmStateCoordinator.recorded, idle, after.nextJob, List.map_cons, List.map_map]
    congr 1
    · cases confirmation <;>
        simp [AlarmStateCoordinator.recordEvent, Event.renumber]
    · split
      · cases (solo.record key status confirmation).nextJob key <;> rfl
      · rfl
  · intro event member id inside
    simp only [AlarmStateCoordinator.recorded, List.mem_cons, List.mem_map] at member
    rcases member with rfl | ⟨job, dispatched, rfl⟩
    · have same : id = solo.idCounter := by
        cases confirmation <;> exact List.mem_singleton.mp inside
      rw [same]
      exact Nat.lt_succ_self _
    · split at dispatched
      · rw [List.mem_singleton.mp inside]
        exact after.nextJob_below (Option.mem_toList.mp dispatched)
      · cases dispatched
  · intro id least below
    have below : id < solo.idCounter + 1 := below
    obtain rfl : id = solo.idCounter := by omega
    refine ⟨status, ?_⟩
    cases confirmation with
    | none => exact .inl List.mem_cons_self
    | some confirmation => exact .inr ⟨confirmation, List.mem_cons_self⟩

/-- The job dispatched next leaves a bounded event, the same for both. -/
theorem dispatch (mirror : Mirror key renumbering desk solo) :
    (desk.nextJob key).toList.map Event.dispatched =
        ((solo.nextJob key).toList.map Event.dispatched).map (Event.renumber renumbering) ∧
      Bounded solo.idCounter ((solo.nextJob key).toList.map .dispatched) := by
  constructor
  · rw [mirror.nextJob]
    cases solo.nextJob key <;> rfl
  · intro event member id inside
    obtain ⟨job, dispatched, rfl⟩ := List.mem_map.mp member
    rw [List.mem_singleton.mp inside]
    exact mirror.nextJob_below (Option.mem_toList.mp dispatched)

/-- The outcome of a job of the key is reconciled alike by both. -/
theorem reconcile (mirror : Mirror key renumbering desk solo) {job : Job} (named : job.key = key)
    (old : job.id < solo.idCounter) (busy : (desk.speculativeState.get? key).isSome)
    (now : Int) (committed : Bool) :
    Follows key renumbering
      (desk.reconcileJobOutcome ⟨true⟩ now ((job.renumber renumbering).outcome committed))
      (solo.reconcileJobOutcome ⟨true⟩ now (job.outcome committed)) solo.idCounter := by
  subst named
  rw [mirror.latest, Option.isSome_map] at busy
  obtain ⟨⟨status, id⟩, own⟩ := Option.isSome_iff_exists.mp busy
  have found : desk.speculativeState.get? (job.renumber renumbering).key =
      some (status, renumbering id) := by
    change desk.speculativeState.get? job.key = _
    rw [mirror.latest, own]
    rfl
  have same := mirror.injective (mirror.latestBelow own) old
  have settled := mirror.settle old
  have oldSettled : job.id < (solo.settle job).idCounter := by simpa using old
  have answered := fun answer => solo.settleEvents_bounded job answer old
  have unissued : ∀ {counter : Nat} {events : List Event}, counter = solo.idCounter →
      ∀ id, solo.idCounter ≤ id → id < counter → ∃ status, Issued events id job.key status := by
    intro counter events same id least below
    omega
  cases committed with
  | true =>
      simp only [Job.outcome, AlarmStateCoordinator.reconcileJobOutcome]
      by_cases latest : id = job.id
      · subst latest
        rw [desk.reconcileSuccess_last _ found, solo.reconcileSuccess_last job own]
        refine ⟨settled.clear.confirm rfl oldSettled, ?_, ?_, by simp, unissued (by simp)⟩
        · rw [List.map_append, mirror.settleEvents old]
          rfl
        · simpa using (answered _).append (Bounded.committed old)
      · rw [desk.reconcileSuccess_next _ found (fun equal => latest (same.mp equal)),
          solo.reconcileSuccess_next job own latest]
        refine ⟨settled.confirm rfl oldSettled, ?_, ?_, by simp, unissued (by simp)⟩
        · rw [List.map_append, List.map_append, mirror.settleEvents old, ← settled.dispatch.1]
          rfl
        · have bounded := settled.dispatch.2
          rw [AlarmStateCoordinator.settle_idCounter] at bounded
          simpa using (answered _).append (bounded.append (Bounded.committed old))
  | false =>
      simp only [Job.outcome, AlarmStateCoordinator.reconcileJobOutcome]
      rw [desk.reconcileFailure_eq _ found, solo.reconcileFailure_eq job own]
      have rolls : (renumbering id = (job.renumber renumbering).id ∧
          (job.renumber renumbering).userInitiated = true) ↔
          (id = job.id ∧ job.userInitiated = true) := and_congr_left' same
      simp only [rolls]
      have next : Mirror job.key renumbering
          (if id = job.id ∧ job.userInitiated = true then
            (desk.settle (job.renumber renumbering)).convergeToLastConfirmed job.key
          else desk.settle (job.renumber renumbering))
          (if id = job.id ∧ job.userInitiated = true then
            (solo.settle job).convergeToLastConfirmed job.key else solo.settle job) := by
        split
        · exact settled.converge
        · exact settled
      have counter : (if id = job.id ∧ job.userInitiated = true then
            (solo.settle job).convergeToLastConfirmed job.key
          else solo.settle job).idCounter = solo.idCounter := by
        split <;> simp
      obtain ⟨dispatched, bounded⟩ := next.dispatch
      refine ⟨next, ?_, ?_, Nat.le_of_eq counter.symm, unissued counter⟩
      · rw [List.map_append, List.map_append, mirror.settleEvents old, ← dispatched]
        rfl
      · rw [counter] at bounded ⊢
        exact ((answered _).append (Bounded.failed old)).append bounded

/-- An arrival of the key is handled alike by both. -/
theorem receive (mirror : Mirror key renumbering desk solo)
    (free : desk.pendingConfirmations.get? desk.idCounter = none) {arrival : Arrival}
    (named : arrival.key = key) {own : Option Job}
    (owned : ∀ job, own = some job → job.key = key ∧ job.id < solo.idCounter)
    (busy : ∀ key committed, arrival = .outcome key committed → ∃ job, own = some job ∧
      (desk.speculativeState.get? key).isSome) :
    ∃ extended : Nat → Nat, (∀ id < solo.idCounter, extended id = renumbering id) ∧
      Follows key extended (desk.receive (own.map (Job.renumber renumbering)) arrival)
        (solo.receive own arrival) solo.idCounter := by
  have recorded : ∀ status confirmation, ∃ extended : Nat → Nat,
      (∀ id < solo.idCounter, extended id = renumbering id) ∧
        Follows key extended (desk.recorded key status confirmation)
          (solo.recorded key status confirmation) solo.idCounter :=
    fun status confirmation => ⟨_, fun _ less => Function.update_of_ne (Nat.ne_of_lt less) ..,
      mirror.recorded free status confirmation⟩
  have still : ∀ {events : List Event}, events.map (Event.renumber renumbering) = events →
      Bounded solo.idCounter events →
      ∃ extended : Nat → Nat, (∀ id < solo.idCounter, extended id = renumbering id) ∧
        Follows key extended (.done desk events) (.done solo events) solo.idCounter :=
    fun same bounded => ⟨renumbering, fun _ _ => rfl, mirror, same.symm, bounded, Nat.le_refl _,
      fun _ least below => absurd below (Nat.not_lt.mpr least)⟩
  cases arrival with
  | update status =>
      change Key.from status = key at named
      simp only [AlarmStateCoordinator.receive, AlarmStateCoordinator.handleAutomatedUpdate_eq,
        named, mirror.getLatestStatus]
      split
      · exact recorded status none
      · exact still rfl (by simp [Bounded])
  | request other action user confirmation now =>
      change other = key at named
      subst named
      simp only [AlarmStateCoordinator.receive, AlarmStateCoordinator.handleUserUpdate_eq,
        mirror.getLatestStatus]
      split
      · exact recorded _ _
      · exact still rfl (by simp [Bounded, Event.ids])
  | outcome other committed =>
      change other = key at named
      subst named
      obtain ⟨job, rfl, occupied⟩ := busy other committed rfl
      obtain ⟨named, old⟩ := owned job rfl
      exact ⟨renumbering, fun _ _ => rfl, mirror.reconcile named old occupied 0 committed⟩

end Mirror

end AcornAlarms
