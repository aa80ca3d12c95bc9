import AcornAlarms.Properties.Hydration
import AcornAlarms.Properties.Recovery

/-!
# Statuses name their keys

The status stored, dispatched or published under a key is one of that key's device and source.
Live inputs, wake-ups, rollbacks and the ACNET collection pair the two by construction; the
reduction of the topic takes the key from one half of a record and the status from the other,
and compares their sources only.
-/

namespace AcornAlarms

open Library

section

variable [Platform] {json : StatusJson} {snapshot : List Status} {records : List StringMessage}
  {hydratedStatuses : FiniteMap Key Status} {actions : List Action} {events : List Event}
  {pipeline : Pipeline}

/-- Every status the service holds under a key is one of that key. -/
structure Pipeline.Named (state : Pipeline) : Prop where
  confirmed : ∀ {key status id}, state.coordinator.confirmedState.get? key = some (status, id) →
    Key.from status = key
  speculative : ∀ {key status id},
    state.coordinator.speculativeState.get? key = some (status, id) → Key.from status = key
  jobs : ∀ {key}, ∀ job ∈ state.outstanding key, job.key = key ∧ Key.from job.status = key
  publishes : ∀ publish ∈ state.publishes,
    Key.from publish.detailsRef.status = publish.detailsRef.key
  attempts : ∀ attempt ∈ state.engine.inFlight,
    Key.from attempt.detailsRef.status = attempt.detailsRef.key

/-- The record that decides what a snapshot has for a key: its last effective one. -/
def StringMessage.Decides (json : StatusJson) (record : StringMessage)
    (records : List StringMessage) (key : Key) : Prop :=
  ∃ front rest : List StringMessage, records = front ++ record :: rest ∧
    record.Effective json key ∧
    ∀ later ∈ rest, ¬ later.Effective json key

/-- What an input asks for is about the key it is for. -/
theorem Intake.from_status (intake : Intake) : Key.from intake.status = intake.key := by
  cases intake with
  | automated status => rfl
  | user key action author now => exact Key.from_eq rfl rfl

/-- A status of a job, a publish request or a map is one an id stands for, so all of them name
their keys if the statuses the ids stand for do. -/
theorem Refines.named {lanes : Lanes} (refines : Refines pipeline lanes)
    (ledger : Ledger hydratedStatuses events lanes.desk lanes.underway)
    (known : ∀ {id key status}, Known hydratedStatuses events id key status →
      Key.from status = key) : pipeline.Named where
  confirmed found := by
    rw [refines.desk] at found
    exact known (ledger.confirmed found)
  speculative found := by
    rw [refines.desk] at found
    exact known (ledger.latest found)
  jobs := by
    intro key job member
    rw [(refines.occupies key).outstanding_eq] at member
    obtain ⟨named, issued⟩ := ledger.job (Option.mem_toList.mp member)
    exact ⟨named, known issued⟩
  publishes := by
    intro publish member
    have waiting : publish ∈ pipeline.requestsOf publish.detailsRef.key :=
      List.mem_filter.mpr ⟨member, decide_eq_true rfl⟩
    rw [(refines.occupies _).requests] at waiting
    obtain ⟨job, arrived, same⟩ := Stage.mem_requests waiting
    have details : publish.detailsRef = job.publishDetails := by
      rw [same, Job.publishRequest_details]
    rw [details] at arrived ⊢
    have under : lanes.underway job.key = some job := by
      rw [Lanes.underway, show lanes.stage job.key = .publishing job from arrived]
      rfl
    exact known (ledger.job under).2
  attempts := by
    intro attempt member
    obtain ⟨front, back, whole⟩ := List.append_of_mem member
    obtain ⟨job, number, arrived, rfl, _, _⟩ := refines.attempt_underway whole
    have under : lanes.underway job.key = some job := by
      rw [Lanes.underway, arrived]
      rfl
    rw [Refines.detailsRef_publishRequest]
    exact known (ledger.job under).2

/-- The service keeps every status under the key it names exactly if the record that decides
what the snapshot has for a key names the key's device, wherever that record is a bypass. -/
theorem statuses_named_iff
    (hydrates : mergeHydratedStatuses (loadAcnetHydration snapshot) (reduceSnapshot json records) =
      .ok hydratedStatuses) :
    (∀ {actions events pipeline},
      Pipeline.machine.Run Machine.Every (.start hydratedStatuses) actions events pipeline →
        pipeline.Named) ↔
    ∀ (key : Key) (record : StringMessage) (status : Status),
      record.Decides json records key → record.Carries json status →
        normalize status.device = key.device := by
  constructor
  · rintro named key record status ⟨front, rest, split, effective, spares⟩ carries
    have reduced : (reduceSnapshot json records).get? key = some status :=
      reduceSnapshot_eq_some_iff.mpr ⟨front, record, rest, split, effective, spares, carries⟩
    have hydrated : hydratedStatuses.get? key = some status := by
      rw [mergeHydratedStatuses_eq_ok hydrates, reduced, Option.some_or]
    have confirmed : (Pipeline.start hydratedStatuses).coordinator.confirmedState.get? key =
        some (status, defaultHydratedId) := by
      simp only [Pipeline.start, AlarmStateCoordinator.new, FiniteMap.get?_mapValues, hydrated,
        Option.map_some]
    rw [← (named .refl).confirmed confirmed, Key.from]
  · intro decides actions events pipeline run
    obtain ⟨lanes, refines, ledger⟩ := Pipeline.ledger run
    apply refines.named ledger
    intro id key status known
    have stands : hydratedStatuses.get? key = some status ∨ Key.from status = key := by
      apply known.asked run
      · intro past state action intake _ _
        exact intake.from_status
      · exact Key.from_eq rfl rfl
    rcases stands with hydrated | named
    · rw [mergeHydratedStatuses_eq_ok hydrates] at hydrated
      rcases Option.or_eq_some_iff.mp hydrated with reduced | ⟨_, collected⟩
      · obtain ⟨front, record, rest, split, effective, spares, carries⟩ :=
          reduceSnapshot_eq_some_iff.mp reduced
        have hydratable := reduceSnapshot_hydratable records reduced
        have device := decides key record status ⟨front, rest, split, effective, spares⟩ carries
        have source := hydratable.source.trans hydratable.epics.symm
        cases key
        simp only [Key.from, Key.mk.injEq]
        exact ⟨device, source⟩
      · exact from_of_loadAcnetHydration collected
    · exact named

end

section

attribute [local instance] asciiPlatform

/-- Another EPICS device. -/
def gate : Key := ⟨"GATE", .epics, by decide⟩

/-- A bypass that names the beam, under a key text. -/
def bypassRecord (keyText : String) : StringMessage := ⟨some keyText, servedBypassText⟩

/-- The topic of that one record restores the bypass under the key of the text. -/
theorem reduceSnapshot_bypassRecord {keyText : String} {key : Key}
    (parsed : Key.tryFrom keyText = .ok key) (epics : key.source = .epics) :
    reduceSnapshot beamJson [bypassRecord keyText] = FiniteMap.empty.insert key servedBypass := by
  have body : isTombstone servedBypassText = false := by
    simpa [beamJson] using servedBypass_recodes.body
  have named : servedBypass.source.value = .epics := rfl
  have bypassed : servedBypass.state.value = .bypassed := rfl
  simp [reduceSnapshot, reduceRecord, bypassRecord, parsed, epics, body, beamJson, named, bypassed]

/-- A topic whose bypass names its key, next to an ACNET alarm. -/
theorem statuses_named_beam :
    ∃ hydratedStatuses,
      mergeHydratedStatuses (loadAcnetHydration [pumpReading "major"])
        (reduceSnapshot beamJson [bypassRecord " beam#EPICS"]) = .ok hydratedStatuses ∧
      ∀ {actions events pipeline},
        Pipeline.machine.Run Machine.Every (.start hydratedStatuses) actions events pipeline →
          pipeline.Named := by
  have hydrates : mergeHydratedStatuses (loadAcnetHydration [pumpReading "major"])
      (reduceSnapshot beamJson [bypassRecord " beam#EPICS"]) =
        .ok ((FiniteMap.empty.insert pump (pumpReading "major")).insert beam servedBypass) := by
    rw [reduceSnapshot_bypassRecord rfl rfl]
    rfl
  refine ⟨_, hydrates, (statuses_named_iff hydrates).mpr ?_⟩
  rintro key record status ⟨front, rest, split, effective, _⟩ ⟨_, decoded, _⟩
  obtain rfl : bypassRecord " beam#EPICS" = record := by
    have member : record ∈ [bypassRecord " beam#EPICS"] := by
      rw [split]
      simp
    exact (List.mem_singleton.mp member).symm
  obtain ⟨text, keyed, parsed⟩ := effective.named
  obtain rfl := Option.some.inj keyed
  obtain rfl : beam = key := Except.ok.inj parsed
  obtain rfl : servedBypass = status := by simpa [beamJson, bypassRecord] using decoded
  exact beam.normal

/-- A record keyed by one device and naming another puts the bypass of the second under the
key of the first, and snapshots show it. -/
theorem record_misnamed :
    ∃ hydratedStatuses pipeline,
      mergeHydratedStatuses (loadAcnetHydration [])
        (reduceSnapshot beamJson [bypassRecord "GATE#Epics"]) = .ok hydratedStatuses ∧
      Pipeline.machine.Run Machine.Every (.start hydratedStatuses) [] [] pipeline ∧
      pipeline.coordinator.confirmedState.get? gate = some (servedBypass, defaultHydratedId) ∧
      pipeline.coordinator.snapshotOf = [servedBypass] ∧ Key.from servedBypass = beam ∧
      ¬ pipeline.Named := by
  refine ⟨FiniteMap.empty.insert gate servedBypass, _, ?_, .refl, rfl, rfl, rfl, ?_⟩
  · rw [reduceSnapshot_bypassRecord rfl rfl]
    rfl
  · intro named
    have same : Key.from servedBypass = gate := named.confirmed rfl
    revert same
    decide

end

end AcornAlarms
