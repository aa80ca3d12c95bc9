import AcornAlarms.Lanes.Chronicle
import AcornAlarms.Lanes.Decisions

/-!
# What reaches the coordinator

A turn of the coordinator takes an update, a user's request or the outcome of the job under
way for a key, and everything it reports about a key is about that key.
-/

namespace AcornAlarms

open Library

variable [Platform]

/-- What reaches the coordinator about a key; a wake-up is the update it stands for. -/
inductive Arrival where
  | update (status : Status)
  | request (key : Key) (action : UserAction) (user : String) (confirmation : Confirmation)
      (now : Int)
  | outcome (key : Key) (committed : Bool)
deriving DecidableEq

/-- The key of an arrival. -/
def Arrival.key : Arrival → Key
  | .update status => Key.from status
  | .request key .. => key
  | .outcome key _ => key

/-- Whether an event is a decision about a key, or about its jobs or confirmations. -/
def Event.about (key : Key) : Event → Bool
  | .recorded _ other _ | .admitted _ other _ _ | .resolved _ other _ _ => other = key
  | .refused _ (.stateNotAllowed transition) => transition.key = key
  | .refused _ (.internal other) => other = key
  | .dispatched job | .committed job | .failed job => job.key = key
  | _ => false

namespace AlarmStateCoordinator

/-- The handler of an arrival; an outcome is that of the job under way. -/
def receive (self : AlarmStateCoordinator) (underway : Option Job) : Arrival → Handled
  | .update status => self.handleAutomatedUpdate ⟨true⟩ status
  | .request key action user confirmation now =>
      self.handleUserUpdate ⟨true⟩ key action user confirmation now
  | .outcome _ committed =>
      match underway with
      | some job => self.reconcileJobOutcome ⟨true⟩ 0 (job.outcome committed)
      | none => .done self []

end AlarmStateCoordinator

namespace Pipeline

/-- What a turn of the coordinator takes. -/
def arrival (self : Pipeline) : Action → Option Arrival
  | .input (.automatedUpdate status) _ => some (.update status)
  | .input (.userUpdate key action user confirmation) now =>
      some (.request key action user confirmation now)
  | .jobOutcome now =>
      match self.jobOutcomes with
      | .wake key :: _ => some (.update (buildWakeStatus key now))
      | .committed job :: _ => some (.outcome job.key true)
      | .failed job :: _ => some (.outcome job.key false)
      | [] => none
  | _ => none

end Pipeline

/-- Events about no key at all. -/
def Unrelated (events : List Event) : Prop := ∀ event ∈ events, ∀ key, event.about key = false

theorem Unrelated.filter {events : List Event} (unrelated : Unrelated events) (key : Key) :
    events.filter (Event.about key) = [] :=
  List.filter_eq_nil_iff.mpr fun event member => by simp [unrelated event member key]

theorem Unrelated.singleton {event : Event} (none : ∀ key, event.about key = false) :
    Unrelated [event] := by
  intro other member key
  rw [List.mem_singleton.mp member]
  exact none key

/-- Events about one key and no other. -/
def Concerns (key : Key) (events : List Event) : Prop :=
  ∀ event ∈ events, ∀ other, event.about other = decide (key = other)

namespace Concerns

variable {key : Key} {first second : List Event}

theorem append (early : Concerns key first) (late : Concerns key second) :
    Concerns key (first ++ second) := by
  intro event member
  exact (List.mem_append.mp member).elim (early event) (late event)

theorem filter_self (concerns : Concerns key first) : first.filter (Event.about key) = first :=
  List.filter_eq_self.mpr fun event member => by simp [concerns event member key]

theorem filter_other (concerns : Concerns key first) {other : Key} (different : key ≠ other) :
    first.filter (Event.about other) = [] :=
  List.filter_eq_nil_iff.mpr fun event member => by simp [concerns event member other, different]

end Concerns

namespace AlarmStateCoordinator

variable (self : AlarmStateCoordinator)

theorem recorded_concerns (key : Key) (status : Status) (confirmation : Option Confirmation) :
    Concerns key (self.recorded key status confirmation).events := by
  intro event member other
  simp only [recorded, List.mem_cons, List.mem_map] at member
  rcases member with rfl | ⟨job, inside, rfl⟩
  · cases confirmation <;> rfl
  · have named : job.key = key := by
      split at inside
      · exact nextJob_key (Option.mem_toList.mp inside)
      · cases inside
    simp [Event.about, named]

theorem settleEvents_concerns (job : Job) (answer : Except UpdateError Unit) :
    Concerns job.key (self.settleEvents job answer) := by
  intro event member other
  unfold settleEvents resolve at member
  split at member
  · rw [List.mem_singleton.mp member]
    rfl
  · cases member

theorem nextJob_concerns (key : Key) :
    Concerns key ((self.nextJob key).toList.map .dispatched) := by
  intro event member other
  obtain ⟨job, inside, rfl⟩ := List.mem_map.mp member
  simp [Event.about, nextJob_key (Option.mem_toList.mp inside)]

theorem outcome_concerns (job : Job) :
    Concerns job.key [.committed job] ∧ Concerns job.key [.failed job] :=
  ⟨fun event member other => by rw [List.mem_singleton.mp member]; rfl,
    fun event member other => by rw [List.mem_singleton.mp member]; rfl⟩

/-- The outcome of a job is reconciled without an error, and what is reported is about its key. -/
theorem reconcile_concerns {job : Job} {entry : Status × Nat}
    (found : self.speculativeState.get? job.key = some entry) (now : Int) (committed : Bool) :
    (self.reconcileJobOutcome ⟨true⟩ now (job.outcome committed)).failure = none ∧
      Concerns job.key (self.reconcileJobOutcome ⟨true⟩ now (job.outcome committed)).events := by
  obtain ⟨status, id⟩ := entry
  have settled := fun answer => self.settleEvents_concerns job answer
  have outcome := outcome_concerns job
  cases committed with
  | true =>
      by_cases latest : id = job.id
      · subst latest
        simp only [Job.outcome, reconcileJobOutcome, self.reconcileSuccess_last job found, true_and]
        exact (settled _).append outcome.1
      · simp only [Job.outcome, reconcileJobOutcome, self.reconcileSuccess_next job found latest,
          true_and]
        exact (settled _).append ((nextJob_concerns _ _).append outcome.1)
  | false =>
      simp only [Job.outcome, reconcileJobOutcome, self.reconcileFailure_eq job found, true_and]
      exact ((settled _).append outcome.2).append (nextJob_concerns _ _)

/-- An update or a request is handled without an error, and what is reported is about its key. -/
theorem decide_concerns (job : Option Job) (arrival : Arrival)
    (decided : ∀ key committed, arrival ≠ .outcome key committed) :
    (self.receive job arrival).failure = none ∧
      Concerns arrival.key (self.receive job arrival).events := by
  cases arrival with
  | update status =>
      simp only [receive, handleAutomatedUpdate_eq]
      split
      · exact ⟨rfl, self.recorded_concerns _ _ _⟩
      · exact ⟨rfl, fun event member => absurd member List.not_mem_nil⟩
  | request key action user confirmation now =>
      simp only [receive, handleUserUpdate_eq]
      split
      · exact ⟨rfl, self.recorded_concerns _ _ _⟩
      · refine ⟨rfl, fun event member other => ?_⟩
        rw [List.mem_singleton.mp member]
        rfl
  | outcome key committed => exact absurd rfl (decided key committed)

end AlarmStateCoordinator

namespace Pipeline

variable {self : Pipeline}

theorem work_unrelated (result : Except String Worked) :
    (self.work result).1.coordinator = self.coordinator ∧ Unrelated (self.work result).2.2 := by
  cases result with
  | ok worked =>
      refine ⟨rfl, fun event member key => ?_⟩
      obtain ⟨_, _, rfl⟩ := List.mem_map.mp member
      rfl
  | error message => exact ⟨rfl, Unrelated.singleton fun _ => rfl⟩

theorem schedule_unrelated (input : SnoozeInput)
    (result : Except String (SnoozeScheduler × SnoozeOutcome)) :
    (self.schedule input result).1.coordinator = self.coordinator ∧
      Unrelated (self.schedule input result).2.2 := by
  cases result with
  | ok answered => exact ⟨rfl, Unrelated.singleton fun _ => rfl⟩
  | error message => exact ⟨rfl, Unrelated.singleton fun _ => rfl⟩

/-- A turn in which nothing reaches the coordinator is about no key. -/
theorem handle_unrelated {action : Action} {handled : Pipeline × Sent × List Event}
    (fires : self.handle action = some handled) (nothing : self.arrival action = none) :
    handled.1.coordinator = self.coordinator ∧ Unrelated handled.2.2 := by
  cases turn_of_handle fires with
  | @input message now running =>
      cases message with
      | snapshotRequest sender => exact ⟨rfl, Unrelated.singleton fun _ => rfl⟩
      | _ => cases nothing
  | @jobOutcome now outcome rest queue running =>
      cases outcome <;> simp [arrival, queue] at nothing
  | publishOutcome | snoozeOutcome | job => exact work_unrelated _
  | snoozeInput => exact schedule_unrelated _ _
  | expiry | completion => exact ⟨rfl, Unrelated.singleton fun _ => rfl⟩
  | flush | publish => exact ⟨rfl, fun event member => absurd member List.not_mem_nil⟩

end Pipeline

namespace Refines

variable {pipeline next : Pipeline} {lanes : Lanes} {out : List Event} {action : Action}

/-- The outcome at the front of its queue is that of the job under way. -/
theorem outcome_underway (refines : Refines pipeline lanes) {job : Job} {ok : Bool}
    {rest : List JobOutcome} (head : pipeline.jobOutcomes = job.outcome ok :: rest) :
    lanes.underway job.key = some job := by
  rw [Lanes.underway, (refines.outcome_arrived head).1]
  rfl

/-- The outcome that reaches the coordinator is that of the job under way. -/
theorem arrival_outcome (refines : Refines pipeline lanes) {key : Key} {committed : Bool}
    (taken : pipeline.arrival action = some (.outcome key committed)) :
    ∃ job, lanes.underway key = some job ∧ (lanes.desk.speculativeState.get? key).isSome := by
  suffices under : ∃ job, lanes.underway key = some job by
    obtain ⟨job, under⟩ := under
    refine ⟨job, under, ?_⟩
    rw [lanes.busy, ← Lanes.underway, under]
    rfl
  cases action with
  | input message now => cases message <;> cases taken
  | jobOutcome now =>
      simp only [Pipeline.arrival] at taken
      split at taken
      · cases taken
      · next job rest queue =>
          cases taken
          exact ⟨job, @outcome_underway _ pipeline lanes refines job true rest queue⟩
      · next job rest queue =>
          cases taken
          exact ⟨job, @outcome_underway _ pipeline lanes refines job false rest queue⟩
      · cases taken
  | _ => cases taken

/-- A turn in which nothing reaches the coordinator leaves it alone. -/
theorem turn_none (fires : pipeline.step action = some (next, out))
    (nothing : pipeline.arrival action = none) :
    next.coordinator = pipeline.coordinator ∧ Unrelated out := by
  simp only [Pipeline.step, Option.map_eq_some_iff, Prod.exists, Prod.mk.injEq] at fires
  obtain ⟨handled, sent, events, handles, rfl, rfl⟩ := fires
  exact Pipeline.handle_unrelated handles nothing

/-- A turn in which something reaches the coordinator is that of its handler. -/
theorem turn_some (refines : Refines pipeline lanes) {arrival : Arrival}
    (fires : pipeline.step action = some (next, out))
    (taken : pipeline.arrival action = some arrival) :
    Concerns arrival.key (lanes.desk.receive (lanes.underway arrival.key) arrival).events ∧
      next.coordinator = (lanes.desk.receive (lanes.underway arrival.key) arrival).coordinator ∧
      ∀ key, out.filter (Event.about key) =
        (lanes.desk.receive (lanes.underway arrival.key) arrival).events.filter
          (Event.about key) := by
  cases action with
  | input message now =>
      simp only [Pipeline.step, Pipeline.handle, if_pos refines.coordinatorRunning,
        refines.jobPort_eq, refines.desk, Option.map_some, Option.some.injEq] at fires
      have decided : ∀ key committed, arrival ≠ .outcome key committed := by
        rintro key committed rfl
        cases message <;> cases taken
      obtain ⟨ended, concerns⟩ :=
        lanes.desk.decide_concerns (lanes.underway arrival.key) arrival decided
      refine ⟨concerns, ?_⟩
      cases message with
      | snapshotRequest sender => cases taken
      | automatedUpdate status =>
          obtain rfl := Option.some.inj taken
          have handled : (lanes.desk.handleAutomatedUpdate ⟨true⟩ status).failure = none := ended
          rw [AlarmStateCoordinator.handleMessage, Pipeline.coordinate_ok _ handled] at fires
          obtain ⟨rfl, rfl⟩ := Prod.mk.inj fires
          exact ⟨rfl, fun key => rfl⟩
      | userUpdate key userAction user confirmation =>
          obtain rfl := Option.some.inj taken
          have handled : (lanes.desk.handleUserUpdate ⟨true⟩ key userAction user confirmation
              now).failure = none := ended
          rw [AlarmStateCoordinator.handleMessage, Pipeline.coordinate_ok _ handled] at fires
          obtain ⟨rfl, rfl⟩ := Prod.mk.inj fires
          exact ⟨rfl, fun key => rfl⟩
  | jobOutcome now =>
      cases queue : pipeline.jobOutcomes with
      | nil => simp [Pipeline.arrival, queue] at taken
      | cons outcome rest =>
          simp only [Pipeline.step, Pipeline.handle, queue, if_pos refines.coordinatorRunning,
            refines.jobPort_eq, refines.desk, Option.map_some, Option.some.injEq] at fires
          -- The outcome of a job is handed to the handler of the job under way.
          have reconciles : ∀ (job : Job) committed, outcome = job.outcome committed →
              arrival = .outcome job.key committed →
              Concerns arrival.key (lanes.desk.receive (lanes.underway arrival.key) arrival).events ∧
              next.coordinator =
                (lanes.desk.receive (lanes.underway arrival.key) arrival).coordinator ∧
              ∀ key, out.filter (Event.about key) =
                (lanes.desk.receive (lanes.underway arrival.key) arrival).events.filter
                  (Event.about key) := by
            rintro job committed rfl rfl
            obtain ⟨entry, found⟩ := refines.outcome_busy queue
            obtain ⟨ended, _⟩ := lanes.desk.reconcile_concerns found now committed
            rw [Pipeline.coordinate_ok _ ended] at fires
            obtain ⟨rfl, rfl⟩ := Prod.mk.inj fires
            have received : lanes.desk.receive (lanes.underway job.key) (.outcome job.key committed) =
                lanes.desk.reconcileJobOutcome ⟨true⟩ now (job.outcome committed) := by
              rw [refines.outcome_underway queue]
              cases committed <;> rfl
            simp only [Arrival.key, received]
            exact ⟨(lanes.desk.reconcile_concerns found now committed).2, rfl, fun _ => trivial⟩
          cases outcome with
          | wake key =>
              have same : arrival = .update (buildWakeStatus key now) := by
                simpa [Pipeline.arrival, queue] using taken.symm
              subst same
              obtain ⟨ended, concerns⟩ := lanes.desk.decide_concerns
                (lanes.underway (Key.from (buildWakeStatus key now)))
                (.update (buildWakeStatus key now)) (by simp)
              refine ⟨concerns, ?_⟩
              have whole : (lanes.desk.dispatchAutomatedWake ⟨true⟩ key now).failure = none := ended
              rw [AlarmStateCoordinator.reconcileJobOutcome, Pipeline.coordinate_ok _ whole] at fires
              obtain ⟨rfl, rfl⟩ := Prod.mk.inj fires
              exact ⟨rfl, fun key => rfl⟩
          | committed job =>
              exact reconciles job true rfl (by simpa [Pipeline.arrival, queue] using taken.symm)
          | failed job =>
              exact reconciles job false rfl (by simpa [Pipeline.arrival, queue] using taken.symm)
  | _ => cases taken

end Refines

end AcornAlarms
