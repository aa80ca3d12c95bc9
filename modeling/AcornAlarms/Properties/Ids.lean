import AcornAlarms.Lanes.Order

/-!
# Ids are ordered along the pipeline
-/

namespace AcornAlarms

open Library

section

variable [Platform]

/-- The ids a pipeline holds for a key are in the order of the pipeline. -/
structure Pipeline.OrderedIds (pipeline : Pipeline) (key : Key) : Prop where
  confirmed_latest : ∀ {status id latest latestId},
    pipeline.coordinator.confirmedState.get? key = some (status, id) →
    pipeline.coordinator.speculativeState.get? key = some (latest, latestId) → id ≤ latestId
  confirmed_job : ∀ {status id job},
    pipeline.coordinator.confirmedState.get? key = some (status, id) →
    job ∈ pipeline.outstanding key → id ≤ job.id
  job_latest : ∀ {job latest latestId}, job ∈ pipeline.outstanding key →
    pipeline.coordinator.speculativeState.get? key = some (latest, latestId) → job.id ≤ latestId
  confirmed_counter : ∀ {status id},
    pipeline.coordinator.confirmedState.get? key = some (status, id) →
      id < pipeline.coordinator.idCounter
  job_counter : ∀ {job}, job ∈ pipeline.outstanding key → job.id < pipeline.coordinator.idCounter
  latest_counter : ∀ {latest latestId},
    pipeline.coordinator.speculativeState.get? key = some (latest, latestId) →
    latestId < pipeline.coordinator.idCounter
  same_status : ∀ {job latest}, job ∈ pipeline.outstanding key →
    pipeline.coordinator.speculativeState.get? key = some (latest, job.id) → job.status = latest

/-- The id of a confirmed entry is followed by no smaller one. -/
def Pipeline.ConfirmedGrows (self later : Pipeline) : Prop :=
  ∀ key status id, self.coordinator.confirmedState.get? key = some (status, id) →
    ∃ laterStatus laterId,
      later.coordinator.confirmedState.get? key = some (laterStatus, laterId) ∧ id ≤ laterId

/-- A turn drops a latest intent when the job with its id and status commits. -/
def Pipeline.ClearsOwn (self : Pipeline) : Prop :=
  ∀ action next out key status id, self.step action = some (next, out) →
    self.coordinator.speculativeState.get? key = some (status, id) →
    next.coordinator.speculativeState.get? key = none →
    ∃ job, .committed job ∈ out ∧ job.key = key ∧ job.status = status ∧ job.id = id

variable {hydratedStatuses : FiniteMap Key Status} {pipeline next : Pipeline} {lanes : Lanes}
  {past : List Event}

/-- The order of the lanes is that of the pipeline they describe. -/
theorem Refines.orderedIds (refines : Refines pipeline lanes)
    (ledger : Ledger hydratedStatuses past lanes.desk lanes.underway) (ordered : lanes.Ordered)
    (key : Key) : pipeline.OrderedIds key where
  confirmed_latest := by
    intro status id latest latestId confirmed speculative
    rw [refines.desk] at confirmed speculative
    have busy : (lanes.underway key).isSome := by
      rw [Lanes.underway, ← lanes.busy key, speculative]
      rfl
    obtain ⟨job, under⟩ := Option.isSome_iff_exists.mp busy
    exact Nat.le_trans (ordered.confirmed confirmed under) (ordered.latest under speculative)
  confirmed_job := by
    intro status id job confirmed member
    rw [refines.desk] at confirmed
    exact ordered.confirmed confirmed (refines.mem_outstanding.mp member)
  job_latest := by
    intro job latest latestId member speculative
    rw [refines.desk] at speculative
    exact ordered.latest (refines.mem_outstanding.mp member) speculative
  confirmed_counter := by
    intro status id confirmed
    rw [refines.desk] at confirmed ⊢
    exact ledger.below (ledger.confirmed confirmed)
  job_counter := by
    intro job member
    rw [refines.desk]
    exact ledger.below (ledger.job (refines.mem_outstanding.mp member)).2
  latest_counter := by
    intro latest latestId speculative
    rw [refines.desk] at speculative ⊢
    exact ledger.below (ledger.latest speculative)
  same_status := by
    intro job latest member speculative
    rw [refines.desk] at speculative
    exact Lanes.same_status ledger (refines.mem_outstanding.mp member) speculative

/-- In every reachable state the ids of every key are ordered and name one status each, the
confirmed id of a key never decreases, and a latest intent is dropped only by the commit of
its own status. -/
theorem ids_ordered {actions : List Action} {events : List Event}
    {admits : List Event → Pipeline → Action → Prop}
    (reached : Pipeline.machine.Run admits (.start hydratedStatuses) actions events pipeline) :
    (∀ key, pipeline.OrderedIds key) ∧ pipeline.ClearsOwn ∧
      ∀ later more final, Pipeline.machine.Run Machine.Every pipeline later more final →
        pipeline.ConfirmedGrows final := by
  obtain ⟨lanes, refines, ledger, ordered⟩ := Pipeline.ordered reached
  refine ⟨refines.orderedIds ledger ordered, ?_, ?_⟩
  · intro action next out key status id fires latest dropped
    obtain ⟨nextLanes, step, after⟩ := refines.step fires
    rw [refines.desk] at latest
    rw [after.desk] at dropped
    exact step.clears ledger latest dropped
  · intro later more final run
    suffices grown : ∃ lanes past, Refines final lanes ∧
        Ledger hydratedStatuses past lanes.desk lanes.underway ∧ lanes.Ordered ∧
        pipeline.ConfirmedGrows final by
      obtain ⟨_, _, _, _, _, grows⟩ := grown
      exact grows
    refine run.invariant (fun state => ∃ lanes past, Refines state lanes ∧
      Ledger hydratedStatuses past lanes.desk lanes.underway ∧ lanes.Ordered ∧
      pipeline.ConfirmedGrows state)
      ⟨lanes, events, refines, ledger, ordered, fun _ status id confirmed =>
        ⟨status, id, confirmed, Nat.le_refl _⟩⟩ ?_
    rintro _ state action next out ⟨lanes, past, refines, ledger, ordered, grows⟩ _ fires
    obtain ⟨nextLanes, step, after⟩ := refines.step fires
    refine ⟨nextLanes, past ++ out, after, step.ledger ledger, step.ordered ordered ledger, ?_⟩
    intro key status id confirmed
    obtain ⟨middleStatus, middle, found, grown⟩ := grows key status id confirmed
    rw [refines.desk] at found
    obtain ⟨laterStatus, laterId, last, more⟩ := step.confirmed_grows ordered found
    exact ⟨laterStatus, laterId, by rw [after.desk, last], Nat.le_trans grown more⟩

end

section

attribute [local instance] asciiPlatform

/-- An alarm is published, and a bypass of it fails and is rolled back. -/
def rolledBack : List Action :=
  [.input (.automatedUpdate (pump.report .alarmed .high)) 0] ++ Pipeline.carry ⟨0, 0⟩ ++
  Pipeline.commit ++ [.input (.userUpdate pump (.bypass none) "operator" 10) 0] ++
  Pipeline.carry ⟨0, 0⟩ ++ Pipeline.giveUp

/-- The rollback dispatches the confirmed id again, behind the newer id that failed. -/
theorem ids_ordered_rolledBack :
    ∃ pipeline events job,
      Pipeline.machine.Run Pipeline.Prioritized (.start .empty) rolledBack events pipeline ∧
      pipeline.outstanding pump = [job] ∧
      pipeline.coordinator.confirmedState.get? pump = some (pump.report .alarmed .high, 1) ∧
      1 ≤ job.id ∧ job.id < pipeline.coordinator.idCounter := by
  obtain ⟨pipeline, events, run, check⟩ := Pipeline.run_of_check .empty rolledBack
    (fun pipeline _ => (pipeline.outstanding pump).length = 1 ∧
      pipeline.coordinator.confirmedState.get? pump = some (pump.report .alarmed .high, 1))
    (by decide)
  obtain ⟨single, confirmed⟩ := of_decide_eq_true check
  obtain ⟨job, outstanding⟩ := List.length_eq_one_iff.mp single
  have member : job ∈ pipeline.outstanding pump := by simp [outstanding]
  obtain ⟨ordered, _, _⟩ := ids_ordered run
  exact ⟨pipeline, events, job, run, outstanding, confirmed,
    (ordered pump).confirmed_job confirmed member, (ordered pump).job_counter member⟩

end

end AcornAlarms
