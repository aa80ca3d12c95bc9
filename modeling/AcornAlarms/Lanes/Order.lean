import AcornAlarms.Lanes.Rollback

/-!
# The order of ids along a lane

Ids reach the confirmed state behind the job that carries them, and the job behind the
latest intent. A rollback and a retry dispatch an id again, but never one that was
overtaken.
-/

namespace AcornAlarms

open Library

variable [Platform]

namespace Lanes

variable {lanes next : Lanes} {out : List Event} {key : Key}

/-- The confirmed id of a key is at most that of its job, which is at most that of its latest
intent. -/
structure Ordered (lanes : Lanes) : Prop where
  confirmed : ∀ {key status id job}, lanes.desk.confirmedState.get? key = some (status, id) →
    lanes.underway key = some job → id ≤ job.id
  latest : ∀ {key status id job}, lanes.underway key = some job →
    lanes.desk.speculativeState.get? key = some (status, id) → job.id ≤ id

theorem start_ordered (hydratedStatuses : FiniteMap Key Status) :
    (start hydratedStatuses).Ordered where
  confirmed := fun _ under => by simp [underway, start, Stage.job?] at under
  latest := fun under => by simp [underway, start, Stage.job?] at under

/-- The latest intent and the confirmed entry of a key with a job under way. -/
theorem Records.underway {status : Status} {confirmation : Option Confirmation} {job : Job}
    (records : lanes.Records key out next status confirmation)
    (under : next.underway key = some job) :
    lanes.underway key = some job ∨ job.id = lanes.desk.idCounter := by
  rcases records.lane with ⟨_, queued⟩ | ⟨_, kept⟩
  · rw [Lanes.underway, queued, Function.update_self] at under
    obtain rfl := Option.some.inj under
    exact .inr rfl
  · rw [Lanes.underway, kept] at under
    exact .inl under

/-- A step keeps the ids ordered. -/
theorem Step.ordered {hydratedStatuses : FiniteMap Key Status} {past : List Event}
    (step : lanes.Step out next) (ordered : lanes.Ordered)
    (ledger : Ledger hydratedStatuses past lanes.desk lanes.underway) : next.Ordered where
  confirmed := by
    intro key status id job confirmed under
    rcases step.seen key with ⟨recorded, given, records⟩ | ⟨_, view⟩
    · rw [records.desk, AlarmStateCoordinator.record_confirmedState] at confirmed
      rcases records.underway under with same | fresh
      · exact ordered.confirmed confirmed same
      · rw [fresh]
        exact Nat.le_of_lt (ledger.below (ledger.confirmed confirmed))
    · cases view with
      | stays kept _ same _ _ => exact ordered.confirmed (same ▸ confirmed) (kept ▸ under)
      | commitLast _ _ _ stage _ _ _ =>
          rw [Lanes.underway, stage] at under
          cases under
      | commitNext arrived latest _ _ written stage _ _ _ _ =>
          rw [written] at confirmed
          obtain ⟨rfl, rfl⟩ := Prod.mk.inj (Option.some.inj confirmed)
          rw [Lanes.underway, stage] at under
          obtain rfl := Option.some.inj under
          exact ordered.latest (underway_arrived arrived) latest
      | @fails failed _ other entry arrived latest chosen _ same stage _ _ _ =>
          rw [same] at confirmed
          rw [Lanes.underway, stage] at under
          obtain rfl := Option.some.inj under
          by_cases rolls : other = failed.id ∧ failed.userInitiated = true
          · rw [if_pos rolls, confirmedOrDefault_of_confirmed confirmed] at chosen
            rw [chosen]
          · rw [if_neg rolls] at chosen
            rw [chosen]
            exact Nat.le_trans (ordered.confirmed confirmed (underway_arrived arrived))
              (ordered.latest (underway_arrived arrived) latest)
  latest := by
    intro key status id job under latest
    rcases step.seen key with ⟨recorded, given, records⟩ | ⟨_, view⟩
    · rw [records.desk, AlarmStateCoordinator.record_speculativeState,
        FiniteMap.get?_insert_self] at latest
      obtain ⟨rfl, rfl⟩ := Prod.mk.inj (Option.some.inj latest)
      rcases records.underway under with same | fresh
      · exact Nat.le_of_lt (ledger.below (ledger.job same).2)
      · exact Nat.le_of_eq fresh
    · cases view with
      | stays kept same _ _ _ => exact ordered.latest (kept ▸ under) (same ▸ latest)
      | commitLast _ _ _ stage _ _ _ =>
          rw [Lanes.underway, stage] at under
          cases under
      | commitNext _ _ _ kept _ stage _ _ _ _ | fails _ _ _ kept _ stage _ _ _ =>
          rw [kept] at latest
          rw [Lanes.underway, stage] at under
          obtain rfl := Option.some.inj under
          obtain ⟨rfl, rfl⟩ := Prod.mk.inj (Option.some.inj latest)
          exact Nat.le_refl _

/-- The confirmed entry of a key gives way only to one whose id is not smaller. -/
theorem Step.confirmed_grows (step : lanes.Step out next) (ordered : lanes.Ordered)
    {status : Status} {id : Nat} (confirmed : lanes.desk.confirmedState.get? key = some (status, id)) :
    ∃ laterStatus later, next.desk.confirmedState.get? key = some (laterStatus, later) ∧
      id ≤ later := by
  rcases step.seen key with ⟨recorded, given, records⟩ | ⟨_, view⟩
  · exact ⟨status, id, by rw [records.desk]; exact confirmed, Nat.le_refl _⟩
  · cases view with
    | stays _ _ same _ _ => exact ⟨status, id, same.trans confirmed, Nat.le_refl _⟩
    | commitLast arrived _ written _ _ _ _ =>
        exact ⟨_, _, written, ordered.confirmed confirmed (underway_arrived arrived)⟩
    | commitNext arrived _ _ _ written _ _ _ _ _ =>
        exact ⟨_, _, written, ordered.confirmed confirmed (underway_arrived arrived)⟩
    | fails _ _ _ _ same _ _ _ _ => exact ⟨status, id, same.trans confirmed, Nat.le_refl _⟩

/-- An id of a key names one status, that of the job and that of the latest intent. -/
theorem same_status {hydratedStatuses : FiniteMap Key Status} {past : List Event}
    (ledger : Ledger hydratedStatuses past lanes.desk lanes.underway) {job : Job}
    {status : Status} (under : lanes.underway key = some job)
    (latest : lanes.desk.speculativeState.get? key = some (status, job.id)) :
    job.status = status :=
  ledger.names (ledger.job under).2 (ledger.latest latest)

/-- The latest intent of a key is dropped when the job with its id and status commits. -/
theorem Step.clears {hydratedStatuses : FiniteMap Key Status} {past : List Event}
    (step : lanes.Step out next)
    (ledger : Ledger hydratedStatuses past lanes.desk lanes.underway) {status : Status} {id : Nat}
    (latest : lanes.desk.speculativeState.get? key = some (status, id))
    (dropped : next.desk.speculativeState.get? key = none) :
    ∃ job, .committed job ∈ out ∧ job.key = key ∧ job.status = status ∧ job.id = id := by
  rcases step.seen key with ⟨recorded, given, records⟩ | ⟨_, view⟩
  · rw [records.desk, AlarmStateCoordinator.record_speculativeState,
      FiniteMap.get?_insert_self] at dropped
    cases dropped
  · cases view with
    | stays _ same _ _ _ =>
        rw [same, latest] at dropped
        cases dropped
    | @commitLast job recorded arrived found _ _ _ committed _ =>
        have under := underway_arrived arrived
        rw [latest] at found
        obtain ⟨rfl, rfl⟩ := Prod.mk.inj (Option.some.inj found)
        exact ⟨job, committed, (ledger.job under).1, same_status ledger under latest, rfl⟩
    | commitNext _ _ _ kept _ _ _ _ _ _ | fails _ _ _ kept _ _ _ _ _ =>
        rw [kept] at dropped
        cases dropped

end Lanes

/-- After every run the ids of every key are ordered. -/
theorem Pipeline.ordered {hydratedStatuses : FiniteMap Key Status}
    {admits : List Event → Pipeline → Action → Prop} {actions : List Action}
    {events : List Event} {final : Pipeline}
    (run : Pipeline.machine.Run admits (.start hydratedStatuses) actions events final) :
    ∃ lanes, Refines final lanes ∧ Ledger hydratedStatuses events lanes.desk lanes.underway ∧
      lanes.Ordered :=
  (Refines.initial hydratedStatuses).history run
    (fun past lanes => Ledger hydratedStatuses past lanes.desk lanes.underway ∧ lanes.Ordered)
    ⟨Ledger.start hydratedStatuses, Lanes.start_ordered hydratedStatuses⟩
    fun ⟨ledger, ordered⟩ step => ⟨step.ledger ledger, step.ordered ordered ledger⟩

end AcornAlarms
