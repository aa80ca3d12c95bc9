import AcornAlarms.Lanes.Chronicle
import AcornAlarms.Lanes.Reference

/-!
# An EPICS bypass holds against automated traffic

From the moment a bypass of an EPICS key is accepted nothing but a user, a wake-up or the
failure of a user job ends it: updates from Redis are suppressed, and jobs decided before it
may fail, retry or commit without showing again once the bypass is committed.
-/

namespace AcornAlarms

open Library

section

variable [Platform]

namespace Pipeline

/-- The turn ends no bypass of the key: its automated updates come from Redis, no activation of
the key is accepted and no wake-up of it is handled. -/
structure Holding (key : Key) (past : List Event) (pipeline : Pipeline) (action : Action) : Prop where
  fed : Fed past pipeline action
  inactive : ∀ user confirmation now,
    action = .input (.userUpdate key .activate user confirmation) now →
    pipeline.coordinator.allows key .activate = false
  unwoken : ∀ now rest, action = .jobOutcome now → pipeline.jobOutcomes ≠ .wake key :: rest

/-- A check that a turn ends no bypass of the key, given readings of Redis. -/
def holds (key : Key) (readings : List Status) (self : Pipeline) (action : Action) : Bool :=
  self.feeds readings action &&
    match action with
    | .input (.userUpdate other .activate _ _) _ => other ≠ key
    | .jobOutcome _ => self.jobOutcomes.head? ≠ some (.wake key)
    | _ => true

theorem holding_of_holds {key : Key} {readings : List Status}
    (redis : ∀ status ∈ readings, FromRedis status) (past : List Event) (self : Pipeline)
    (action : Action) (allowed : self.holds key readings action = true) :
    Holding key past self action := by
  obtain ⟨fed, rest⟩ := Bool.and_eq_true_iff.mp allowed
  refine ⟨?_, ?_, ?_⟩
  · rintro status now rfl
    exact redis status (of_decide_eq_true fed)
  · rintro user confirmation now rfl
    simp at rest
  · rintro now waiting rfl queue
    simp [queue] at rest

/-- The latest status of the key is a bypass. -/
def Bypassing (self : Pipeline) (key : Key) : Prop :=
  ∃ held, self.coordinator.getLatestStatus key = some held ∧ held.state.value = .bypassed

/-- The confirmed status of the key is a bypass. -/
def ConfirmsBypass (self : Pipeline) (key : Key) : Prop :=
  ∃ held id, self.coordinator.confirmedState.get? key = some (held, id) ∧
    held.state.value = .bypassed

end Pipeline

/-- The coordinator as if a key had no entry. -/
def AlarmStateCoordinator.without (self : AlarmStateCoordinator) (key : Key) :
    AlarmStateCoordinator :=
  { self with
    confirmedState := self.confirmedState.erase key
    speculativeState := self.speculativeState.erase key }

theorem AlarmStateCoordinator.without_latest (self : AlarmStateCoordinator) {key other : Key}
    (different : other ≠ key) :
    (self.without key).getLatestStatus other = self.getLatestStatus other := by
  simp [without, getLatestStatus, FiniteMap.get?_erase_of_ne _ different]

/-- What the policy accepts while a bypass of an EPICS key holds is a bypass again. -/
theorem Pipeline.Holding.accepts {key : Key} {past : List Event} {self : Pipeline} {action : Action}
    {intake : Intake} {status : Status} (holding : Pipeline.Holding key past self action)
    (epics : key.source = .epics) (bypassing : self.Bypassing key)
    (taken : self.intake action = some intake)
    (accepted : intake.verdict (self.coordinator.getLatestStatus intake.key) =
      .accepted key status) : status.state.value = .bypassed := by
  obtain ⟨held, latest, bypassed⟩ := bypassing
  obtain ⟨same, rfl⟩ := Intake.verdict_accepted accepted
  rw [← same, latest] at accepted
  cases intake with
  | automated update =>
      rcases holding.fed.automated taken with redis | ⟨woken, now, rest, rfl, queue, waking⟩
      · have source : update.source.value = .epics := by
          rw [← epics, same]
          rfl
        rw [Intake.verdict, shouldPublish_bypassed bypassed source redis.state_ne.2.1] at accepted
        cases accepted
      · refine absurd queue (holding.unwoken now rest rfl ∘ ?_)
        rw [same, Intake.key, waking, Key.from_buildWakeStatus]
        exact id
  | user named requested author now =>
      obtain rfl : key = named := same
      cases requested with
      | acknowledge => simp [Intake.verdict, userActionAllowed, bypassed] at accepted
      | bypass _ => rfl
      | activate =>
          cases action with
          | input message clock =>
              cases message with
              | userUpdate other requested user confirmation =>
                  obtain ⟨rfl, rfl, rfl, rfl⟩ := Intake.user.inj (Option.some.inj taken)
                  have refused := holding.inactive user confirmation clock rfl
                  simp [AlarmStateCoordinator.allows, latest, userActionAllowed, bypassed] at refused
              | _ => cases taken
          | jobOutcome clock =>
              simp only [Pipeline.intake] at taken
              split at taken <;> cases taken
          | _ => cases taken

namespace Lanes

variable {hydratedStatuses : FiniteMap Key Status} {lanes next : Lanes} {past out : List Event}
  {key : Key}

/-- The latest status of the key is a bypass. -/
def Bypassing (lanes : Lanes) (key : Key) : Prop :=
  ∃ held, lanes.desk.getLatestStatus key = some held ∧ held.state.value = .bypassed

/-- Everything of the key is a bypass: its confirmed status and the job under way. -/
structure Sealed (lanes : Lanes) (key : Key) : Prop where
  confirmed : ∃ held id, lanes.desk.confirmedState.get? key = some (held, id) ∧
    held.state.value = .bypassed
  carried : ∀ job, lanes.underway key = some job → job.status.state.value = .bypassed

/-- A step that records only bypasses of the key keeps its latest status one. -/
theorem Step.bypassing (step : lanes.Step out next) (bypassing : lanes.Bypassing key)
    (ledger : Ledger hydratedStatuses past lanes.desk lanes.underway)
    (unfailed : UnfailedOf key out)
    (bypasses : ∀ event ∈ out, ∀ status, event.verdict? = some (.accepted key status) →
      status.state.value = .bypassed) : next.Bypassing key := by
  rcases step.seen key with ⟨status, confirmation, records⟩ | ⟨_, view⟩
  · refine ⟨status, ?_, ?_⟩
    · rw [records.desk]
      simp [AlarmStateCoordinator.getLatestStatus]
    · exact bypasses _ records.reported status (by cases confirmation <;> rfl)
  · rw [Bypassing, view.latest_kept ledger unfailed]
    exact bypassing

/-- The status of the speculative entry of a bypassed key. -/
theorem Bypassing.speculative (bypassing : lanes.Bypassing key) {status : Status} {id : Nat}
    (found : lanes.desk.speculativeState.get? key = some (status, id)) :
    status.state.value = .bypassed := by
  obtain ⟨held, latest, bypassed⟩ := bypassing
  rw [AlarmStateCoordinator.getLatestStatus, found] at latest
  obtain rfl : status = held := by simpa using latest
  exact bypassed

/-- The commit of a bypass seals a bypassed key, and a sealed key stays sealed. -/
theorem Step.seals (step : lanes.Step out next) (bypassing : lanes.Bypassing key)
    (ledger : Ledger hydratedStatuses past lanes.desk lanes.underway)
    (unfailed : UnfailedOf key out)
    (bypasses : ∀ event ∈ out, ∀ status, event.verdict? = some (.accepted key status) →
      status.state.value = .bypassed)
    (either : lanes.Sealed key ∨ ∃ job, .committed job ∈ out ∧ job.key = key ∧
      job.status.state.value = .bypassed) : next.Sealed key := by
  rcases step.seen key with ⟨status, confirmation, records⟩ | ⟨_, view⟩
  · have sealed : lanes.Sealed key := by
      rcases either with sealed | ⟨job, committed, _, _⟩
      · exact sealed
      · obtain ⟨_, unrecorded, _⟩ := step.settles (.inr committed)
        have recorded := unrecorded _ records.reported
        rw [AlarmStateCoordinator.recordEvent_recordKey?] at recorded
        cases recorded
    refine ⟨by rw [records.desk]; exact sealed.confirmed, fun job under => ?_⟩
    rcases records.lane with ⟨_, stage⟩ | ⟨_, stage⟩
    · rw [underway, stage, Function.update_self] at under
      obtain rfl := Option.some.inj under
      exact bypasses _ records.reported status (by cases confirmation <;> rfl)
    · rw [underway, stage] at under
      exact sealed.carried job under
  · -- Without a commit the key was sealed before.
    have before : ∀ {job ok}, lanes.stage key = .settled job ok →
        lanes.Sealed key ∨ ok = true ∧ job.status.state.value = .bypassed := by
      intro job ok arrived
      rcases either with sealed | ⟨other, committed, rfl, bypassed⟩
      · exact .inl sealed
      · rw [step.commits committed] at arrived
        obtain ⟨rfl, rfl⟩ := Stage.settled.inj arrived
        exact .inr ⟨rfl, bypassed⟩
    cases view with
    | stays under _ confirmed _ unsettled =>
        have sealed : lanes.Sealed key := by
          rcases either with sealed | ⟨job, committed, named, _⟩
          · exact sealed
          · exact absurd committed (unsettled job named).2
        exact ⟨by rw [confirmed]; exact sealed.confirmed,
          fun job found => sealed.carried job (under ▸ found)⟩
    | @commitLast job status arrived found confirmed stage _ _ _ =>
        refine ⟨⟨_, _, confirmed, ?_⟩, fun other under => ?_⟩
        · rw [same_status ledger (underway_arrived arrived) found]
          exact bypassing.speculative found
        · rw [underway, stage] at under
          cases under
    | @commitNext job status id arrived found _ _ confirmed stage _ _ _ _ =>
        refine ⟨⟨_, _, confirmed, ?_⟩, fun other under => ?_⟩
        · rcases before arrived with sealed | ⟨_, bypassed⟩
          · exact sealed.carried job (underway_arrived arrived)
          · exact bypassed
        · rw [underway, stage] at under
          obtain rfl := Option.some.inj under
          exact bypassing.speculative found
    | @fails job status id entry arrived found chosen _ confirmed stage _ failed _ =>
        have sealed : lanes.Sealed key := by
          rcases before arrived with sealed | ⟨ok, _⟩
          · exact sealed
          · cases ok
        have automated := unfailed job ((failed job).mpr rfl)
          (ledger.job (underway_arrived arrived)).1
        rw [if_neg (by simp [automated])] at chosen
        subst chosen
        refine ⟨by rw [confirmed]; exact sealed.confirmed, fun other under => ?_⟩
        rw [underway, stage] at under
        obtain rfl := Option.some.inj under
        exact bypassing.speculative found

/-- Under a seal only bypasses of the key are published. -/
theorem Step.publishes_sealed (step : lanes.Step out next) (sealed : lanes.Sealed key)
    {status : Status} {delivered : Bool} (member : .published key status delivered ∈ out) :
    status.state.value = .bypassed := by
  obtain ⟨moved, reached, move, _, _⟩ := step.travels member trivial
  generalize current : lanes.stage moved = before at move
  have carried : ∀ {job}, before.job? = some job → moved = key →
      job.status.state.value = .bypassed := by
    rintro job under rfl
    exact sealed.carried job (by rw [underway, current]; exact under)
  cases move with
  | receive | advance | reject | attempt => exact absurd member List.not_mem_nil
  | answer => simp at member
  | retry _ =>
      obtain ⟨rfl, rfl, _⟩ := Event.published.inj (List.mem_singleton.mp member)
      exact carried rfl rfl
  | deliver _ =>
      obtain ⟨rfl, rfl, _⟩ := Event.published.inj (List.mem_singleton.mp member)
      exact carried rfl rfl

end Lanes

/-- What the turns of a bypass keep: the latest status is a bypass, and once the key is sealed,
from the start or by a commit, it stays sealed and only bypasses of it are published. -/
structure Bypassed (key : Key) (fromStart : Prop) (later : List Event) (lanes : Lanes) : Prop where
  latest : lanes.Bypassing key
  sealed : (fromStart ∨ ∃ job, .committed job ∈ later ∧ job.key = key ∧
    job.status.state.value = .bypassed) → lanes.Sealed key
  published : fromStart → ∀ status delivered, .published key status delivered ∈ later →
    status.state.value = .bypassed

variable {hydratedStatuses : FiniteMap Key Status} {pipeline next final : Pipeline} {lanes : Lanes}
  {key : Key} {past out earlier : List Event} {action : Action} {actions : List Action}
  {later : List Event}

theorem Refines.bypasses (refines : Refines pipeline lanes) (bypassing : lanes.Bypassing key)
    (epics : key.source = .epics) (holding : Pipeline.Holding key past pipeline action)
    (fires : pipeline.step action = some (next, out)) :
    ∀ event ∈ out, ∀ status, event.verdict? = some (.accepted key status) →
      status.state.value = .bypassed := by
  intro event member status reports
  obtain ⟨intake, taken, accepted⟩ := refines.accepted fires member reports
  refine holding.accepts epics ?_ taken accepted
  rw [Pipeline.Bypassing, refines.desk]
  exact bypassing

/-- What holds during a bypass. -/
theorem Refines.bypassed {fromStart : Prop} (refines : Refines pipeline lanes)
    (ledger : Ledger hydratedStatuses earlier lanes.desk lanes.underway)
    (bypassing : lanes.Bypassing key) (sealed : fromStart → lanes.Sealed key)
    (epics : key.source = .epics)
    (run : Pipeline.machine.Run (Pipeline.Holding key) pipeline actions later final)
    (unfailed : UnfailedOf key later) :
    ∃ lanes, Refines final lanes ∧
      Ledger hydratedStatuses (earlier ++ later) lanes.desk lanes.underway ∧
      Bypassed key fromStart later lanes := by
  induction run with
  | refl =>
      refine ⟨lanes, refines, by rw [List.append_nil]; exact ledger, bypassing, ?_, ?_⟩
      · rintro (start | ⟨job, committed, _⟩)
        · exact sealed start
        · exact absurd committed List.not_mem_nil
      · exact fun _ _ _ member => absurd member List.not_mem_nil
  | @snoc actions later state action next out prior holding fires ih =>
      obtain ⟨lanes, refines, ledger, bypassed⟩ := ih fun job member =>
        unfailed job (List.mem_append_left out member)
      have here : UnfailedOf key out := fun job member =>
        unfailed job (List.mem_append_right later member)
      obtain ⟨nextLanes, step, after⟩ := refines.step fires
      have bypasses := refines.bypasses bypassed.latest epics holding fires
      refine ⟨nextLanes, after, ?_, step.bypassing bypassed.latest ledger here bypasses, ?_, ?_⟩
      · rw [← List.append_assoc]
        exact step.ledger ledger
      · intro either
        refine step.seals bypassed.latest ledger here bypasses ?_
        rcases either with start | ⟨job, committed, named, state⟩
        · exact .inl (bypassed.sealed (.inl start))
        · rcases List.mem_append.mp committed with early | late
          · exact .inl (bypassed.sealed (.inr ⟨job, early, named, state⟩))
          · exact .inr ⟨job, late, named, state⟩
      · intro start status delivered member
        rcases List.mem_append.mp member with early | late
        · exact bypassed.published start status delivered early
        · exact step.publishes_sealed (bypassed.sealed (.inl start)) late

/-- From the acceptance of a bypass of an EPICS key on, as long as no activation of it is
accepted, no wake-up of it is handled and no user job of it fails: the latest status is a
bypass, an update of the key from Redis changes nothing, and after the commit of a bypass the
confirmed status and all that is published for the key are bypasses. Updates of other keys of
the device are decided as without the bypass. -/
theorem bypass_holds {admits : List Event → Pipeline → Action → Prop} {first : List Action}
    {before middle : Pipeline} {wake : Option Timestamp} {user : String}
    {confirmation : Confirmation} {now : Int} (epics : key.source = .epics)
    (run : Pipeline.machine.Run admits (.start hydratedStatuses) first earlier before)
    (accepted : before.coordinator.allows key (.bypass wake) = true)
    (fires : before.step (.input (.userUpdate key (.bypass wake) user confirmation) now) =
      some (middle, out))
    (period : Pipeline.machine.Run (Pipeline.Holding key) middle actions later final)
    (unfailed : UnfailedOf key later) :
    final.Bypassing key ∧
    (∀ status now, FromRedis status → Key.from status = key →
      final.step (.input (.automatedUpdate status) now) = some (final, [])) ∧
    ((∃ job, .committed job ∈ later ∧ job.key = key ∧ job.status.state.value = .bypassed) →
      ∀ more beyond last, Pipeline.machine.Run (Pipeline.Holding key) final more beyond last →
      UnfailedOf key beyond → last.ConfirmsBypass key ∧
        ∀ status delivered, .published key status delivered ∈ beyond →
          status.state.value = .bypassed) ∧
    ∀ status now next out, (Key.from status).device = key.device →
      (Key.from status).source ≠ key.source →
      final.step (.input (.automatedUpdate status) now) = some (next, out) →
      verdictOf out = (Intake.automated status).verdict
        ((final.coordinator.without key).getLatestStatus (Key.from status)) := by
  obtain ⟨lanes, refines, ledger⟩ := Pipeline.ledger run
  obtain ⟨nextLanes, step, after⟩ := refines.step fires
  have bypassing : nextLanes.Bypassing key := by
    obtain ⟨verdict, latest, _⟩ := refines.takes fires (rfl : before.intake _ = some (.user ..))
    refine ⟨buildUserStatus key (.bypass wake) user now, ?_, rfl⟩
    rw [AlarmStateCoordinator.allows] at accepted
    rw [← after.desk, latest, verdict]
    simp only [Intake.verdict, Intake.key, accepted, if_true, Reference.after, Function.update_self]
  obtain ⟨lastLanes, last, lastLedger, bypassed⟩ :=
    after.bypassed (step.ledger ledger) bypassing (fun never : False => never.elim) epics period
      unfailed
  obtain ⟨held, latest, state⟩ := bypassed.latest
  rw [← last.desk] at latest
  refine ⟨⟨held, latest, state⟩, ?_, ?_, ?_⟩
  · rintro status now redis rfl
    refine last.suppresses ?_ now
    rw [AlarmStateCoordinator.publishes, latest]
    exact shouldPublish_bypassed state epics redis.state_ne.2.1
  · intro committed more beyond lastState beyondRun healthy
    obtain ⟨_, refined, _, bypassed⟩ := last.bypassed lastLedger bypassed.latest
      (fun _ : True => bypassed.sealed (.inr committed)) epics beyondRun healthy
    refine ⟨?_, bypassed.published trivial⟩
    rw [Pipeline.ConfirmsBypass, refined.desk]
    exact (bypassed.sealed (.inl trivial)).confirmed
  · intro status now next out _ other fires
    obtain ⟨verdict, _, _⟩ := last.takes fires (rfl : final.intake _ = some (.automated status))
    rw [verdict, AlarmStateCoordinator.without_latest]
    · rfl
    · rintro same
      exact other (congrArg Key.source same)

end

section

attribute [local instance] asciiPlatform

/-- The status of a stream entry of the EPICS device. -/
def beamReading (severity : String) : Status :=
  buildStatusFromRedis
    (((FiniteMap.empty.insert "device" "beam").insert "source" "epics").insert "severity" severity) 0

/-- The bypass is published while an alarm of the device arrives. -/
def publishBypass : List Action :=
  Pipeline.carry ⟨0, 0⟩ ++ [.input (.automatedUpdate (beamReading "major")) 0, .completion 0 true,
    .publishOutcome, .jobOutcome 0]

/-- The bypass of the device was committed and no job failed. -/
def bypassCommitted (_ : Pipeline) (later : List Event) : Bool :=
  (later.any fun event => match event with
    | .committed job => job.key = beam ∧ job.status.state.value = .bypassed
    | _ => false) ∧
  later.all fun event => match event with
    | .failed _ => false
    | _ => true

/-- The bypass of the device is committed and its alarms are suppressed. -/
theorem bypass_holds_published :
    ∃ middle out final later,
      (Pipeline.start .empty).step (.input (.userUpdate beam (.bypass none) "operator" 10) 0) =
        some (middle, out) ∧
      Pipeline.machine.Run (Pipeline.Holding beam) middle publishBypass later final ∧
      final.Bypassing beam ∧ final.ConfirmsBypass beam := by
  obtain ⟨middle, out, fires, check⟩ := Pipeline.machine.step_of_check (.start .empty)
    (.input (.userUpdate beam (.bypass none) "operator" 10) 0)
    (fun middle _ => ((Pipeline.machine.exec (Pipeline.holds beam [beamReading "major"]) middle
      publishBypass).any fun (final, later) => bypassCommitted final later)) (by decide)
  have redis : ∀ status ∈ [beamReading "major"], FromRedis status := by
    intro status member
    obtain rfl := List.mem_singleton.mp member
    exact ⟨((FiniteMap.empty.insert "device" "beam").insert "source" "epics").insert "severity"
      "major", 0, rfl⟩
  obtain ⟨final, later, period, check⟩ := Machine.run_of_check (Pipeline.holding_of_holds redis)
    middle publishBypass bypassCommitted check
  obtain ⟨committed, clean⟩ := of_decide_eq_true check
  have unfailed : UnfailedOf beam later := by
    intro job member
    simpa using List.all_eq_true.mp clean _ member
  have bypass : ∃ job, .committed job ∈ later ∧ job.key = beam ∧
      job.status.state.value = .bypassed := by
    obtain ⟨event, member, found⟩ := List.any_eq_true.mp committed
    cases event with
    | committed job => exact ⟨job, member, of_decide_eq_true found⟩
    | _ => cases found
  have started : Pipeline.machine.Run Machine.Every (.start .empty) [] [] (.start .empty) := .refl
  have accepted : (Pipeline.start .empty).coordinator.allows beam (.bypass none) = true := by decide
  have turn : (Pipeline.start .empty).step
      (.input (.userUpdate beam (.bypass none) "operator" 10) 0) = some (middle, out) := fires
  obtain ⟨bypassing, _, seals, _⟩ :=
    bypass_holds (by decide) started accepted turn period unfailed
  have last := seals bypass [] [] final .refl fun _ member => absurd member List.not_mem_nil
  exact ⟨middle, out, final, later, fires, period, bypassing, last.1⟩

end

end AcornAlarms
