import AcornAlarms.Adapters.Snapshot
import AcornAlarms.Lanes.Reference

/-!
# A restart recovers the EPICS bypasses

At rest the confirmed status of a key is the last one published for it, or the one it was
hydrated with. Reducing the topic finds the same status, provided the text of the key
parses; the statuses of other keys are no bypasses.
-/

namespace AcornAlarms

open Library

section

variable [Platform] {json : StatusJson}

/-- The record an event appends to the topic. -/
def Event.record? (json : StatusJson) : Event → Option StringMessage
  | .published key status true => some (alarmToMessage json key status)
  | _ => none

/-- The records a run appends to the topic, oldest first. -/
def publishedRecords (json : StatusJson) (events : List Event) : List StringMessage :=
  events.filterMap (Event.record? json)

/-- An event publishes a status or appends nothing. -/
theorem Event.record?_cases (json : StatusJson) (event : Event) :
    (∃ key status, event = .published key status true) ∨
      (event.record? json = none ∧ ∀ key, event.delivery? key = none) := by
  cases event with
  | published key status delivered =>
      cases delivered with
      | true => exact .inl ⟨key, status, rfl⟩
      | false => exact .inr ⟨rfl, fun _ => rfl⟩
  | _ => exact .inr ⟨rfl, fun _ => rfl⟩

/-- The record of another key leaves a key alone. -/
theorem reduceRecord_alarmToMessage_other {key other : Key} (different : other ≠ key)
    (hydrated : FiniteMap Key Status) (status : Status) :
    (reduceRecord json hydrated (alarmToMessage json other status)).get? key =
      hydrated.get? key := by
  refine reduceRecord_other fun text keyed parsed => ?_
  obtain rfl := Option.some.inj keyed
  exact different (Key.tryFrom_toText_eq parsed).symm

/-- Reducing the records of a run says of a key what the last status published for it says. -/
theorem reduce_publishedRecords {key : Key} (parses : Key.tryFrom key.toText = .ok key)
    (epics : key.source = .epics) (hydrated : FiniteMap Key Status) (events : List Event)
    (faithful : ∀ status, (deliveredOf key events).getLast? = some status →
      status.source.value = .epics ∧ json.Recodes status) :
    ((publishedRecords json events).foldl (reduceRecord json) hydrated).get? key =
      match (deliveredOf key events).getLast? with
      | some status => if status.state.value = .bypassed then some status else none
      | none => hydrated.get? key := by
  induction events using List.reverseRecOn with
  | nil => rfl
  | append_singleton front event ih =>
      rw [deliveredOf_append] at faithful ⊢
      rw [publishedRecords, List.filterMap_append, List.foldl_append]
      rcases event.record?_cases json with ⟨other, status, rfl⟩ | ⟨unrecorded, undelivered⟩
      · simp only [List.filterMap_cons, Event.record?, List.filterMap_nil, List.foldl_cons,
          List.foldl_nil]
        by_cases same : other = key
        · subst same
          have last : (deliveredOf other front ++
              deliveredOf other [.published other status true]).getLast? = some status := by
            simp [deliveredOf, Event.delivery?]
          obtain ⟨named, recodes⟩ := faithful status last
          rw [last, reduceRecord_alarmToMessage parses epics named recodes]
        · have nothing : deliveredOf key [.published other status true] = [] := by
            simp [deliveredOf, Event.delivery?, same]
          rw [nothing, List.append_nil] at faithful ⊢
          rw [reduceRecord_alarmToMessage_other same]
          exact ih faithful
      · have nothing : deliveredOf key [event] = [] := by simp [deliveredOf, undelivered]
        rw [nothing, List.append_nil] at faithful ⊢
        rw [List.filterMap_cons_none unrecorded, List.filterMap_nil, List.foldl_nil]
        exact ih faithful

namespace Pipeline

/-- Automated updates come from the Redis reader, and the keys of user updates were parsed. -/
def Served : List Event → Pipeline → Action → Prop :=
  fun past self action => Fed past self action ∧
    ∀ key userAction user confirmation now,
      action = .input (.userUpdate key userAction user confirmation) now →
        ∃ text, Key.tryFrom text = .ok key

end Pipeline

/-- What a decision may record for a key. -/
structure Recordable (key : Key) (status : Status) : Prop where
  source : status.source.value = key.source
  named : status.state.value = .bypassed → ∃ text, Key.tryFrom text = .ok key

/-- The inputs of the service ask for nothing else. -/
theorem Pipeline.Served.recordable {past : List Event} {pipeline : Pipeline} {action : Action}
    {intake : Intake} (served : Pipeline.Served past pipeline action)
    (taken : pipeline.intake action = some intake) : Recordable intake.key intake.status := by
  cases intake with
  | automated status =>
      refine ⟨rfl, fun bypassed => ?_⟩
      rcases served.1.automated taken with redis | ⟨key, now, _, _, _, rfl⟩
      · exact absurd bypassed redis.state_ne.1
      · cases bypassed
  | user key userAction author now =>
      refine ⟨rfl, fun _ => ?_⟩
      cases action with
      | input message clock =>
          cases message with
          | userUpdate named chosen user confirmation =>
              obtain ⟨rfl, rfl, rfl, rfl⟩ := Intake.user.inj (Option.some.inj taken)
              exact served.2 named chosen user confirmation clock rfl
          | _ => cases taken
      | jobOutcome clock =>
          simp only [intake] at taken
          split at taken <;> cases taken
      | _ => cases taken

/-- A status an id stands for is hydrated or recordable. -/
theorem Known.recordable {hydratedStatuses : FiniteMap Key Status} {actions : List Action}
    {events : List Event} {pipeline : Pipeline} {id : Nat} {key : Key} {status : Status}
    (known : Known hydratedStatuses events id key status)
    (run : Pipeline.machine.Run Pipeline.Served (.start hydratedStatuses) actions events pipeline) :
    hydratedStatuses.get? key = some status ∨ Recordable key status := by
  refine known.asked run Pipeline.Served.recordable ⟨rfl, fun bypassed => ?_⟩
  cases bypassed

/-- The topic, reduced, holds exactly the bypasses of EPICS keys that are confirmed at rest. -/
theorem bypasses_recovered {records : List StringMessage}
    {acnetStatuses hydratedStatuses : FiniteMap Key Status} {actions : List Action}
    {events : List Event} {pipeline : Pipeline}
    (acnet : ∀ key, key.source = .epics → acnetStatuses.get? key = none)
    (hydrates : mergeHydratedStatuses acnetStatuses (reduceSnapshot json records) =
      .ok hydratedStatuses)
    (run : Pipeline.machine.Run Pipeline.Served (.start hydratedStatuses) actions events pipeline)
    (recodes : ∀ key, ∀ status ∈ deliveredOf key events, json.Recodes status)
    (quiet : ∀ key, pipeline.outstanding key = []) (key : Key) :
    (reduceSnapshot json (records ++ publishedRecords json events)).get? key =
      ((pipeline.coordinator.confirmedState.get? key).map Prod.fst).filter fun status =>
        key.source = .epics ∧ status.state.value = .bypassed := by
  obtain ⟨lanes, refines, journal, ledger⟩ := (Refines.initial hydratedStatuses).history run
    (fun past lanes => Journal hydratedStatuses past lanes ∧
      Ledger hydratedStatuses past lanes.desk lanes.underway)
    ⟨Journal.start hydratedStatuses, Ledger.start hydratedStatuses⟩
    (fun both step => ⟨both.1.step step, step.ledger both.2⟩)
  have confirmed : (pipeline.coordinator.confirmedState.get? key).map Prod.fst =
      (deliveredOf key events).getLast?.or (hydratedStatuses.get? key) := by
    rw [refines.desk]
    refine journal.last ?_
    rw [refines.idle_of_outstanding (quiet key)]
    rfl
  have hydrated : key.source = .epics →
      hydratedStatuses.get? key = (reduceSnapshot json records).get? key := by
    intro epics
    rw [mergeHydratedStatuses_eq_ok hydrates, acnet key epics, Option.or_none]
  -- A confirmed status of an EPICS key says its source, and a bypass was asked for by name.
  have known : key.source = .epics → ∀ status,
      (pipeline.coordinator.confirmedState.get? key).map Prod.fst = some status →
        status.source.value = .epics ∧
          (status.state.value = .bypassed → ∃ text, Key.tryFrom text = .ok key) := by
    intro epics status found
    rw [refines.desk] at found
    obtain ⟨⟨_, id⟩, entry, rfl⟩ := Option.map_eq_some_iff.mp found
    rcases (ledger.confirmed entry).recordable run with early | recordable
    · rw [hydrated epics] at early
      have hydratable := reduceSnapshot_hydratable records early
      exact ⟨hydratable.source, fun _ => hydratable.named⟩
    · exact ⟨recordable.source.trans epics, recordable.named⟩
  by_cases recoverable : key.source = .epics ∧ ∃ text, Key.tryFrom text = .ok key
  · obtain ⟨epics, text, parsed⟩ := recoverable
    have faithful : ∀ status, (deliveredOf key events).getLast? = some status →
        status.source.value = .epics ∧ json.Recodes status := by
      intro status last
      refine ⟨(known epics status ?_).1, recodes key status (List.mem_of_getLast? last)⟩
      rw [confirmed, last]
      rfl
    rw [reduceSnapshot, List.foldl_append,
      reduce_publishedRecords (Key.tryFrom_toText_of_ok parsed) epics _ events faithful, confirmed]
    cases last : (deliveredOf key events).getLast? with
    | some status => simp [epics, Option.filter]
    | none =>
        rw [Option.none_or, hydrated epics]
        change (reduceSnapshot json records).get? key = _
        cases found : (reduceSnapshot json records).get? key with
        | none => rfl
        | some status =>
            have state := (reduceSnapshot_hydratable records found).state
            simp [epics, state, Option.filter]
  · have absent :
        (reduceSnapshot json (records ++ publishedRecords json events)).get? key = none := by
      refine Option.eq_none_iff_forall_ne_some.mpr fun status found => recoverable ?_
      have hydratable := reduceSnapshot_hydratable _ found
      exact ⟨hydratable.epics, hydratable.named⟩
    rw [absent, eq_comm, Option.filter_eq_none_iff]
    intro status found
    rw [decide_eq_true_eq]
    rintro ⟨epics, bypassed⟩
    exact recoverable ⟨epics, (known epics status found).2 bypassed⟩

end

section

attribute [local instance] asciiPlatform

/-- A bypass of an EPICS device without a wake time. -/
def servedBypass : Status := buildUserStatus beam (.bypass none) "operator" 10

/-- The JSON text of that status. -/
def servedBypassText : String :=
  "\x7b\"device\":\"BEAM\",\"severity\":0,\"state\":5,\"source\":3,\"acknowledgeable\":false,\"time\":\x7b\"seconds\":10,\"nanos\":0\x7d,\"epics_type\":\"\",\"user\":\"operator\",\"wake\":null\x7d"

/-- The codec on that status. -/
def beamJson : StatusJson where
  encode status := if status = servedBypass then servedBypassText else "\x7b\x7d"
  decode text := if text = servedBypassText then some servedBypass else none

theorem servedBypass_recodes : beamJson.Recodes servedBypass where
  object := by simp [beamJson, servedBypassText]
  decoded := by simp [beamJson]

/-- A topic of records that startup skips. -/
def unreadable : List StringMessage := [⟨none, "missing-key"⟩, ⟨some "BADKEY", "\x7b\x7d"⟩]

/-- The turns in which an operator bypasses the EPICS device and the bypass is published. -/
def bypassBeam : List Action :=
  [.input (.userUpdate beam (.bypass none) "operator" 7) 10] ++ Pipeline.carry ⟨10, 0⟩ ++
    [.completion 0 true, .publishOutcome, .jobOutcome 10]

/-- Whether a turn takes no other input than a user's for the EPICS device. -/
def asksBeam (_ : Pipeline) : Action → Bool
  | .input (.automatedUpdate _) _ => false
  | .input (.userUpdate key _ _ _) _ => key = beam
  | _ => true

/-- A computed run in which users ask for the EPICS device only, and whose end passes a check. -/
theorem beam_of_check (actions : List Action) (check : Pipeline → List Event → Bool)
    (passes : ((Pipeline.machine.exec asksBeam (.start .empty) actions).any
      fun (final, events) => check final events) = true) :
    ∃ final events, Pipeline.machine.Run Pipeline.Served (.start .empty) actions events final ∧
      check final events = true :=
  Machine.run_of_check (by
    intro past state action allowed
    constructor
    · rintro status now rfl
      cases allowed
    · rintro key userAction user confirmation now rfl
      rw [of_decide_eq_true allowed]
      exact ⟨"beam#epics", rfl⟩) _ actions check passes

/-- Whether an event publishes nothing but that bypass. -/
def publishesServedBypass : Event → Bool
  | .published _ status _ => status = servedBypass
  | _ => true

theorem publishesServedBypass_status {event : Event} {key : Key} {status : Status}
    (only : publishesServedBypass event = true) (reports : event.delivery? key = some status) :
    status = servedBypass := by
  cases event with
  | published other published delivered =>
      cases delivered with
      | false => cases reports
      | true =>
          simp only [Event.delivery?, Option.ite_none_right_eq_some, Option.some.injEq] at reports
          rw [← reports.2]
          exact of_decide_eq_true only
  | _ => cases reports

/-- A restart finds the bypass. -/
theorem bypasses_recovered_beam :
    ∃ pipeline events,
      Pipeline.machine.Run Pipeline.Served (.start .empty) bypassBeam events pipeline ∧
      (reduceSnapshot beamJson (unreadable ++ publishedRecords beamJson events)).get? beam =
        some servedBypass := by
  obtain ⟨pipeline, events, run, check⟩ := beam_of_check bypassBeam
    (fun pipeline events => pipeline.coordinator.speculativeState.keys = [] ∧
      (pipeline.coordinator.confirmedState.get? beam).map Prod.fst = some servedBypass ∧
      events.all publishesServedBypass) (by decide)
  obtain ⟨keys, confirmed, only⟩ := of_decide_eq_true check
  obtain ⟨lanes, refines⟩ := (Refines.initial .empty).run run
  have quiet : ∀ key, pipeline.outstanding key = [] := fun key =>
    refines.outstanding_nil ((FiniteMap.keys_eq_nil_iff _).mp keys key)
  have recodes : ∀ key, ∀ status ∈ deliveredOf key events, beamJson.Recodes status := by
    intro key status member
    obtain ⟨event, inside, reports⟩ := List.mem_filterMap.mp member
    obtain rfl := publishesServedBypass_status (List.all_eq_true.mp only event inside) reports
    exact servedBypass_recodes
  have recovered := bypasses_recovered (fun _ _ => FiniteMap.get?_empty _)
    (rfl : mergeHydratedStatuses .empty (reduceSnapshot beamJson unreadable) = .ok .empty)
    run recodes quiet beam
  refine ⟨pipeline, events, run, ?_⟩
  rw [recovered, confirmed]
  decide

end

end AcornAlarms
