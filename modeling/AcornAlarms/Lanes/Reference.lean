import AcornAlarms.Adapters.Redis
import AcornAlarms.Lanes.Order

/-!
# The immediate sequential machine

One status for each key, and every input applied at once: no jobs, no outcomes and no ids.
`Pipeline.intake` says which turns take an input, the clock reading they take it at included,
and `Pipeline.decisions` what the pipeline decided about each.
-/

namespace AcornAlarms

open Library

variable [Platform]

/-- An input the policy decides about, with the clock reading its status is stamped with. -/
inductive Intake where
  | automated (status : Status)
  | user (key : Key) (action : UserAction) (user : String) (now : Int)
deriving DecidableEq

/-- A decision about an input. -/
inductive Verdict where
  | accepted (key : Key) (status : Status)
  | suppressed
  | rejected (error : UpdateError)
deriving DecidableEq

namespace Intake

/-- The key an input is about. -/
def key : Intake → Key
  | automated status => Key.from status
  | user key .. => key

/-- What the policy decides about an input from the current status of its key. -/
def verdict (current : Option Status) : Intake → Verdict
  | automated status =>
      if shouldPublish current status then .accepted (Key.from status) status else .suppressed
  | user key action author now =>
      let state := (current.map fun status => status.state.value).getD .unknown
      if userActionAllowed state (current.bind fun status => status.wake) action then
        .accepted key (buildUserStatus key action author now)
      else .rejected (.stateNotAllowed { key, current := state, requested := action.asState })

/-- The status an input asks for. -/
def status : Intake → Status
  | automated status => status
  | user key action author now => buildUserStatus key action author now

/-- What is accepted is the status of the input, for its key. -/
theorem verdict_accepted {current : Option Status} {intake : Intake} {key : Key} {status : Status}
    (accepted : intake.verdict current = .accepted key status) :
    key = intake.key ∧ status = intake.status := by
  cases intake with
  | automated update =>
      simp only [verdict] at accepted
      split at accepted
      · obtain ⟨rfl, rfl⟩ := Verdict.accepted.inj accepted
        exact ⟨rfl, rfl⟩
      · cases accepted
  | user named action author now =>
      simp only [verdict] at accepted
      split at accepted
      · obtain ⟨rfl, rfl⟩ := Verdict.accepted.inj accepted
        exact ⟨rfl, rfl⟩
      · cases accepted

end Intake

/-- The status of every key. -/
abbrev Reference := Key → Option Status

namespace Reference

def start (hydratedStatuses : FiniteMap Key Status) : Reference := hydratedStatuses.get?

/-- The statuses after a decision. -/
def after (self : Reference) : Verdict → Reference
  | .accepted key status => Function.update self key (some status)
  | .suppressed | .rejected _ => self

/-- The machine that decides about an input and applies it at once. -/
def machine : Machine Reference Intake Verdict where
  step self intake :=
    let verdict := intake.verdict (self intake.key)
    some (self.after verdict, [verdict])

end Reference

/-- The decision an event reports. -/
def Event.verdict? : Event → Option Verdict
  | .recorded _ key status | .admitted _ key status _ => some (.accepted key status)
  | .refused _ error => some (.rejected error)
  | _ => none

/-- The decision of a turn that took an input: a suppressed update leaves no event. -/
def verdictOf (out : List Event) : Verdict := (out.findSome? Event.verdict?).getD .suppressed

/-- An accepted status is recorded for its key. -/
theorem Event.recordKey?_of_verdict {event : Event} {key : Key} {status : Status}
    (reports : event.verdict? = some (.accepted key status)) : event.recordKey? = some key := by
  cases event with
  | recorded _ _ _ | admitted _ _ _ _ =>
      obtain ⟨rfl, rfl⟩ := Verdict.accepted.inj (Option.some.inj reports)
      rfl
  | _ => cases reports

namespace Pipeline

/-- The input a turn takes. -/
def intake (self : Pipeline) : Action → Option Intake
  | .input (.automatedUpdate status) _ => some (.automated status)
  | .input (.userUpdate key action user _) now => some (.user key action user now)
  | .jobOutcome now =>
      match self.jobOutcomes with
      | .wake key :: _ => some (.automated (buildWakeStatus key now))
      | _ => none
  | _ => none

/-- The input a turn takes and what is decided about it. -/
def decides (self : Pipeline) (action : Action) (out : List Event) : List (Intake × Verdict) :=
  (self.intake action).toList.map fun intake => (intake, verdictOf out)

/-- The inputs the turns of a run take, and what is decided about them. -/
def decisions (self : Pipeline) (actions : List Action) : List (Intake × Verdict) :=
  machine.observe decides self actions

/-- Every automated update comes from the Redis reader. -/
def Fed : List Event → Pipeline → Action → Prop :=
  fun _ _ action => ∀ status now, action = .input (.automatedUpdate status) now → FromRedis status

/-- Whether an automated update a turn takes is one of some readings. -/
def feeds (readings : List Status) (_ : Pipeline) : Action → Bool
  | .input (.automatedUpdate status) _ => status ∈ readings
  | _ => true

/-- A computed run fed with readings of Redis whose end passes a check. -/
theorem fed_of_check (readings : List Status) (redis : ∀ status ∈ readings, FromRedis status)
    (start : Pipeline) (actions : List Action) (check : Pipeline → List Event → Bool)
    (passes : ((machine.exec (feeds readings) start actions).any
      fun (final, events) => check final events) = true) :
    ∃ final events, machine.Run Fed start actions events final ∧ check final events = true :=
  Machine.run_of_check (by
    rintro past state action allowed status now rfl
    exact redis status (of_decide_eq_true allowed)) start actions check passes

/-- An automated update is one from Redis or stands for a wake-up. -/
theorem Fed.automated {past : List Event} {self : Pipeline} {action : Action} {status : Status}
    (fed : Fed past self action) (taken : self.intake action = some (.automated status)) :
    FromRedis status ∨ ∃ key now rest, action = .jobOutcome now ∧
      self.jobOutcomes = .wake key :: rest ∧ status = buildWakeStatus key now := by
  cases action with
  | input message now =>
      cases message with
      | automatedUpdate update =>
          obtain rfl := Intake.automated.inj (Option.some.inj taken)
          exact .inl (fed update now rfl)
      | _ => cases taken
  | jobOutcome now =>
      simp only [intake] at taken
      split at taken
      · next key rest queue =>
          obtain rfl := Intake.automated.inj (Option.some.inj taken)
          exact .inr ⟨key, now, rest, rfl, queue, rfl⟩
      · cases taken
  | _ => cases taken

/-- A turn takes no input of the key. -/
def Untaken (key : Key) : List Event → Pipeline → Action → Prop :=
  fun _ self action => (self.intake action).map Intake.key ≠ some key

/-- A turn records a status for the key of the input it takes. -/
theorem records_intake {self : Pipeline} {action : Action} {key : Key}
    (records : self.records action = some key) :
    (self.intake action).map Intake.key = some key := by
  cases action with
  | input message now =>
      cases message with
      | snapshotRequest sender => cases records
      | automatedUpdate status =>
          simp only [Pipeline.records] at records
          split at records
          · exact records
          · cases records
      | userUpdate named action user confirmation =>
          simp only [Pipeline.records] at records
          split at records
          · exact records
          · cases records
  | jobOutcome now =>
      simp only [Pipeline.records] at records
      split at records
      · next waking rest queue =>
          split at records
          · simp only [intake, queue, Option.map_some, Intake.key, Key.from_buildWakeStatus]
            exact records
          · cases records
      · cases records
  | _ => cases records

/-- A computed run that takes no input of the key and whose end passes a check. -/
theorem untaken_of_check (key : Key) (start : Pipeline) (actions : List Action)
    (check : Pipeline → List Event → Bool)
    (passes : ((machine.exec
      (fun state action => decide ((state.intake action).map Intake.key ≠ some key)) start
      actions).any fun (final, events) => check final events) = true) :
    ∃ final events, machine.Run (Untaken key) start actions events final ∧
      check final events = true :=
  Machine.run_of_check (by
    intro past state action allowed
    rw [decide_eq_true_eq] at allowed
    exact allowed) start actions check passes

end Pipeline

namespace AlarmStateCoordinator

variable (self : AlarmStateCoordinator)

/-- The latest statuses after a status was recorded. -/
theorem recorded_latest (key other : Key) (status : Status) (confirmation : Option Confirmation) :
    (self.recorded key status confirmation).coordinator.getLatestStatus other =
      Function.update self.getLatestStatus key (some status) other := by
  rw [Function.update_apply]
  by_cases same : other = key
  · simp [recorded, getLatestStatus, same]
  · simp [recorded, getLatestStatus, same, FiniteMap.get?_insert_of_ne]

/-- A recorded status is reported first. -/
theorem recorded_verdict (key : Key) (status : Status) (confirmation : Option Confirmation) :
    verdictOf (self.recorded key status confirmation).events = .accepted key status := by
  cases confirmation <;> rfl

/-- A recorded status is the only decision reported. -/
theorem recorded_decides {key : Key} {status : Status} {confirmation : Option Confirmation}
    {event : Event} (member : event ∈ (self.recorded key status confirmation).events) :
    event.verdict? = none ∨ event.verdict? = some (.accepted key status) := by
  simp only [recorded, List.mem_cons, List.mem_map] at member
  rcases member with rfl | ⟨job, _, rfl⟩
  · exact .inr (by cases confirmation <;> rfl)
  · exact .inl rfl

end AlarmStateCoordinator

namespace Refines

variable {pipeline next : Pipeline} {lanes : Lanes} {out : List Event}

/-- A turn that takes an input decides about it by the latest status of its key, makes the
accepted status the latest one and reports no other decision. -/
theorem takes (refines : Refines pipeline lanes) {action : Action} {intake : Intake}
    (fires : pipeline.step action = some (next, out))
    (taken : pipeline.intake action = some intake) :
    verdictOf out = intake.verdict (pipeline.coordinator.getLatestStatus intake.key) ∧
      next.coordinator.getLatestStatus =
        Reference.after pipeline.coordinator.getLatestStatus (verdictOf out) ∧
      ∀ event ∈ out, event.verdict? = none ∨ event.verdict? = some (verdictOf out) := by
  have accepts : ∀ key status confirmation,
      verdictOf (pipeline.coordinator.recorded key status confirmation).events =
          .accepted key status ∧
        (pipeline.coordinator.recorded key status confirmation).coordinator.getLatestStatus =
          Function.update pipeline.coordinator.getLatestStatus key (some status) ∧
        ∀ event ∈ (pipeline.coordinator.recorded key status confirmation).events,
          event.verdict? = none ∨ event.verdict? = some (.accepted key status) :=
    fun key status confirmation => ⟨AlarmStateCoordinator.recorded_verdict _ _ _ _,
      funext fun other => AlarmStateCoordinator.recorded_latest _ _ other _ _,
      fun event member => AlarmStateCoordinator.recorded_decides _ member⟩
  cases action with
  | input message now =>
      simp only [Pipeline.step, Pipeline.handle, if_pos refines.coordinatorRunning,
        refines.jobPort_eq, Option.map_some, Option.some.injEq] at fires
      cases message with
      | snapshotRequest sender => cases taken
      | automatedUpdate status =>
          obtain rfl := Option.some.inj taken
          rw [AlarmStateCoordinator.handleMessage,
            AlarmStateCoordinator.handleAutomatedUpdate_eq] at fires
          split at fires
          · next allowed =>
              obtain ⟨verdict, latest, decides⟩ := accepts (Key.from status) status none
              rw [pipeline.coordinate_ok (AlarmStateCoordinator.recorded_failure ..)] at fires
              obtain ⟨rfl, rfl⟩ := Prod.mk.inj fires
              simp only [Intake.verdict, Intake.key, verdict, allowed, if_true, true_and]
              exact ⟨latest, decides⟩
          · next suppressed =>
              simp only [Handled.done, Pipeline.coordinate_ok, Prod.mk.injEq] at fires
              obtain ⟨rfl, rfl⟩ := fires
              simp [Intake.verdict, Intake.key, suppressed, verdictOf, Reference.after]
      | userUpdate key action user confirmation =>
          obtain rfl := Option.some.inj taken
          rw [AlarmStateCoordinator.handleMessage, AlarmStateCoordinator.handleUserUpdate_eq] at fires
          split at fires
          · next allowed =>
              obtain ⟨verdict, latest, decides⟩ := accepts key (buildUserStatus key action user now)
                (some confirmation)
              rw [pipeline.coordinate_ok (AlarmStateCoordinator.recorded_failure ..)] at fires
              obtain ⟨rfl, rfl⟩ := Prod.mk.inj fires
              simp only [Intake.verdict, Intake.key, verdict, allowed, if_true, true_and]
              exact ⟨latest, decides⟩
          · next refused =>
              simp only [Handled.done, Pipeline.coordinate_ok, Prod.mk.injEq] at fires
              obtain ⟨rfl, rfl⟩ := fires
              simp [Intake.verdict, Intake.key, refused, verdictOf, Event.verdict?, Reference.after]
  | jobOutcome now =>
      simp only [Pipeline.intake] at taken
      split at taken
      · next key rest queue =>
          obtain rfl := Option.some.inj taken
          simp only [Pipeline.step, Pipeline.handle, queue, if_pos refines.coordinatorRunning,
            refines.jobPort_eq, AlarmStateCoordinator.reconcileJobOutcome,
            AlarmStateCoordinator.dispatchAutomatedWake,
            AlarmStateCoordinator.handleAutomatedUpdate_eq, Option.map_some,
            Option.some.injEq] at fires
          split at fires
          · next allowed =>
              obtain ⟨verdict, latest, decides⟩ := accepts (Key.from (buildWakeStatus key now))
                (buildWakeStatus key now) none
              have ended : ((pipeline.coordinator.recorded (Key.from (buildWakeStatus key now))
                  (buildWakeStatus key now) none).after [.woke key]).failure = none := rfl
              rw [Pipeline.coordinate_ok _ ended] at fires
              obtain ⟨rfl, rfl⟩ := Prod.mk.inj fires
              simp only [Handled.after, Intake.verdict, Intake.key, allowed, if_true]
              exact ⟨rfl, latest, List.forall_mem_append.mpr ⟨by simp [Event.verdict?], decides⟩⟩
          · next suppressed =>
              simp only [Handled.after, Handled.done, Pipeline.coordinate_ok, Prod.mk.injEq] at fires
              obtain ⟨rfl, rfl⟩ := fires
              rw [Key.from_buildWakeStatus] at suppressed
              simp [Intake.verdict, Intake.key, suppressed, verdictOf, Event.verdict?,
                Reference.after]
      · cases taken
  | _ => cases taken

/-- A turn records the status the policy accepted from the input it takes. -/
theorem accepted (refines : Refines pipeline lanes) {action : Action} {event : Event} {key : Key}
    {status : Status} (fires : pipeline.step action = some (next, out)) (member : event ∈ out)
    (reports : event.verdict? = some (.accepted key status)) :
    ∃ intake, pipeline.intake action = some intake ∧
      intake.verdict (pipeline.coordinator.getLatestStatus intake.key) = .accepted key status := by
  have records := Event.recordKey?_of_verdict reports
  obtain ⟨intake, taken, _⟩ := Option.map_eq_some_iff.mp
    (Pipeline.records_intake (refines.records fires member records))
  obtain ⟨verdict, _, decides⟩ := refines.takes fires taken
  refine ⟨intake, taken, ?_⟩
  rcases decides event member with none | same
  · rw [none] at reports
    cases reports
  · rw [reports, verdict] at same
    exact (Option.some.inj same).symm

/-- A turn that accepts an input reports it. -/
theorem reports (refines : Refines pipeline lanes) {action : Action} {intake : Intake} {key : Key}
    {status : Status} (fires : pipeline.step action = some (next, out))
    (taken : pipeline.intake action = some intake)
    (accepts : intake.verdict (pipeline.coordinator.getLatestStatus intake.key) =
      .accepted key status) :
    ∃ event ∈ out, event.verdict? = some (.accepted key status) := by
  obtain ⟨verdict, _, _⟩ := refines.takes fires taken
  rw [accepts, verdictOf] at verdict
  cases found : out.findSome? Event.verdict? with
  | none =>
      rw [found] at verdict
      cases verdict
  | some reported =>
      rw [found] at verdict
      obtain ⟨event, member, same⟩ := List.exists_of_findSome?_eq_some found
      exact ⟨event, member, by rw [same]; exact congrArg some verdict⟩

end Refines

/-- What holds of all the inputs of a run ask for, and of the status of a rollback, holds of
every status an id stands for that was not hydrated. -/
theorem Known.asked {hydratedStatuses : FiniteMap Key Status} {actions : List Action}
    {events : List Event} {pipeline : Pipeline} {admits : List Event → Pipeline → Action → Prop}
    {holds : Key → Status → Prop} {id : Nat} {key : Key} {status : Status}
    (known : Known hydratedStatuses events id key status)
    (run : Pipeline.machine.Run admits (.start hydratedStatuses) actions events pipeline)
    (asked : ∀ {past state action intake}, admits past state action →
      Pipeline.intake state action = some intake → holds intake.key intake.status)
    (default : holds key (buildDefaultStatus key)) :
    hydratedStatuses.get? key = some status ∨ holds key status := by
  obtain ⟨_, _, sound⟩ := run.history (fun past state => ∃ lanes, Refines state lanes ∧
      ∀ event ∈ past, ∀ key status, event.verdict? = some (.accepted key status) →
        holds key status) ⟨_, Refines.initial hydratedStatuses, by simp⟩ (by
    rintro past state action next out ⟨lanes, refines, before⟩ admitted fires
    obtain ⟨nextLanes, _, after⟩ := refines.step fires
    refine ⟨nextLanes, after, fun event member key status reports => ?_⟩
    rcases List.mem_append.mp member with early | late
    · exact before event early key status reports
    · obtain ⟨intake, taken, accepted⟩ := refines.accepted fires late reports
      obtain ⟨rfl, rfl⟩ := intake.verdict_accepted accepted
      exact asked admitted taken)
  rcases known with ⟨_, same⟩ | recorded | ⟨confirmation, admitted⟩
  · cases hydrated : hydratedStatuses.get? key with
    | some found =>
        rw [baseline, hydrated, Option.getD_some] at same
        exact .inl (by rw [same])
    | none =>
        rw [baseline, hydrated, Option.getD_none] at same
        subst same
        exact .inr default
  · exact .inr (sound _ recorded key status rfl)
  · exact .inr (sound _ admitted key status rfl)

/-- No user-initiated job failed. -/
def Unfailed (events : List Event) : Prop :=
  ∀ job, .failed job ∈ events → job.userInitiated = false

/-- No user-initiated job of the key failed. -/
def UnfailedOf (key : Key) (events : List Event) : Prop :=
  ∀ job, .failed job ∈ events → job.key = key → job.userInitiated = false

theorem Unfailed.of {events : List Event} (unfailed : Unfailed events) (key : Key) :
    UnfailedOf key events :=
  fun job member _ => unfailed job member

/-- The reconciliation of a key keeps its latest status unless a user job failed. -/
theorem Lanes.View.latest_kept {hydratedStatuses : FiniteMap Key Status} {past out : List Event}
    {lanes next : Lanes} {key : Key} (view : lanes.View key out next)
    (ledger : Ledger hydratedStatuses past lanes.desk lanes.underway)
    (unfailed : UnfailedOf key out) :
    next.desk.getLatestStatus key = lanes.desk.getLatestStatus key := by
  cases view with
  | stays _ latest confirmed _ _ =>
      rw [AlarmStateCoordinator.getLatestStatus, latest, confirmed]
      rfl
  | commitLast arrived latest confirmed stage _ _ _ =>
      have dropped : next.desk.speculativeState.get? key = none := by
        have busy := next.busy key
        rw [stage] at busy
        exact Option.not_isSome_iff_eq_none.mp (by simp [busy, Stage.job?])
      have same := Lanes.same_status ledger (Lanes.underway_arrived arrived) latest
      simp [AlarmStateCoordinator.getLatestStatus, dropped, confirmed, latest, same]
  | commitNext _ latest _ kept _ _ _ _ _ _ =>
      simp [AlarmStateCoordinator.getLatestStatus, kept, latest]
  | @fails job status id entry arrived latest chosen kept _ _ _ failed _ =>
      have named := (ledger.job (Lanes.underway_arrived arrived)).1
      have automated := unfailed job ((failed job).mpr rfl) named
      rw [if_neg (by simp [automated])] at chosen
      simp [AlarmStateCoordinator.getLatestStatus, kept, chosen, latest]

/-- Without the failure of a user job a turn that takes no input keeps every latest status. -/
theorem Lanes.Step.latest_kept {hydratedStatuses : FiniteMap Key Status} {past out : List Event}
    {lanes next : Lanes} (step : lanes.Step out next)
    (ledger : Ledger hydratedStatuses past lanes.desk lanes.underway) (unfailed : Unfailed out)
    (unrecorded : Unrecorded out) :
    next.desk.getLatestStatus = lanes.desk.getLatestStatus := by
  ext1 key
  refine (step.view ?_).latest_kept ledger (unfailed.of key)
  intro event member records
  rw [unrecorded event member] at records
  cases records

namespace Refines

variable {hydratedStatuses : FiniteMap Key Status} {past : List Event} {pipeline final : Pipeline}
  {lanes : Lanes} {key : Key} {actions : List Action} {later : List Event}

/-- A run that takes no input of the key keeps its latest status unless a user job fails. -/
theorem latest_kept (refines : Refines pipeline lanes)
    (ledger : Ledger hydratedStatuses past lanes.desk lanes.underway)
    (run : Pipeline.machine.Run (Pipeline.Untaken key) pipeline actions later final)
    (unfailed : Unfailed later) :
    final.coordinator.getLatestStatus key = pipeline.coordinator.getLatestStatus key := by
  have undisturbed : Pipeline.machine.Run (Pipeline.Undisturbed key) pipeline actions later final :=
    run.admit (fun _ _ => True) trivial (fun _ _ => trivial)
      fun _ untaken records => untaken (Pipeline.records_intake records)
  obtain ⟨lanes, after, _, kept⟩ := refines.undisturbed ledger undisturbed
    (fun past state => Unfailed past →
      state.desk.getLatestStatus key = pipeline.coordinator.getLatestStatus key)
    (fun _ => by rw [refines.desk]) (by
      intro past lanes out next before ledger step unrecorded unfailed
      rw [(step.view unrecorded).latest_kept ledger fun job member _ =>
        unfailed job (List.mem_append_right past member)]
      exact before fun job member => unfailed job (List.mem_append_left out member))
  rw [after.desk]
  exact kept unfailed

/-- The latest status of a key with no job outstanding is confirmed. -/
theorem settled (refines : Refines pipeline lanes) (quiet : pipeline.outstanding key = []) :
    (pipeline.coordinator.confirmedState.get? key).map Prod.fst =
      pipeline.coordinator.getLatestStatus key := by
  have absent : pipeline.coordinator.speculativeState.get? key = none := by
    have busy := lanes.busy key
    rw [refines.idle_of_outstanding quiet] at busy
    rw [refines.desk]
    exact Option.not_isSome_iff_eq_none.mp (by simp [busy, Stage.job?])
  rw [AlarmStateCoordinator.getLatestStatus, absent]
  rfl

end Refines

end AcornAlarms
