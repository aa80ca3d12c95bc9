import AcornAlarms.Lanes.View
import AcornAlarms.Library.Occurrence
import AcornAlarms.Properties.Log
import AcornAlarms.Properties.Publication
import AcornAlarms.Properties.Snapshots

/-!
# What a client sees of its own requests

A client that asks for a snapshot after a request was answered `Ok`, or after another snapshot,
finds what was written for the devices of the request and what it was shown before, or
something written later. A request submitted after another was answered is written after it.
The coordinator handles nothing before it is asked for, and its ids grow.
-/

namespace AcornAlarms

open Library

section

variable [Platform]

/-- A confirmation that is answered `Ok` is that of a job the same step commits. -/
theorem Lanes.Step.paid {lanes next : Lanes} {out : List Event} {id : Nat} {key : Key}
    {confirmation : Confirmation} (step : lanes.Step out next)
    (member : .resolved id key confirmation (.ok ()) ∈ out) :
    ∃ job, .committed job ∈ out ∧ lanes.underway job.key = some job ∧ job.id = id ∧
      job.key = key := by
  have still : ∀ {before : List Event}, (∀ event ∈ before, event.Quiet lanes.desk) →
      .resolved id key confirmation (.ok ()) ∉ before := fun quiet inside => (quiet _ inside).elim
  cases step with
  | still quiet => exact absurd member (still quiet)
  | @start _ _ given _ _ _ _ quiet _ _ _ _ =>
      have early := still quiet
      cases given <;> simp [early, AlarmStateCoordinator.recordEvent] at member
  | @displace _ _ given _ _ _ _ quiet _ _ _ =>
      have early := still quiet
      cases given <;> simp [early, AlarmStateCoordinator.recordEvent] at member
  | travel move _ _ =>
      have silent : ∀ {moved stage reached}, Stage.Move moved stage out reached →
          .resolved id key confirmation (.ok ()) ∉ out := by
        intro moved stage reached move inside
        cases move <;> simp at inside
      exact absurd member (silent move)
  | report _ _ => exact absurd member List.not_mem_nil
  | @commitLast job _ _ arrived _ _ _ =>
      simp only [List.mem_append, List.mem_singleton, reduceCtorEq, or_false] at member
      obtain ⟨rfl, rfl, _, _⟩ := mem_settleEvents member
      exact ⟨job, by simp, underway_settled arrived, rfl, rfl⟩
  | @commitNext job _ _ _ _ arrived _ _ _ _ _ =>
      simp only [List.mem_append, List.mem_cons, List.not_mem_nil, reduceCtorEq, or_false] at member
      obtain ⟨rfl, rfl, _, _⟩ := mem_settleEvents member
      exact ⟨job, by simp, underway_settled arrived, rfl, rfl⟩
  | rollBack | redispatch =>
      simp only [List.mem_append, List.mem_cons, List.not_mem_nil, reduceCtorEq, or_false] at member
      obtain ⟨_, _, wrong, _⟩ := mem_settleEvents member
      cases wrong

/-- An update whose confirmation was answered `Ok` was committed. -/
def Paid (past : List Event) : Prop :=
  ∀ id key confirmation, .resolved id key confirmation (.ok ()) ∈ past →
    ∃ job, .committed job ∈ past ∧ job.id = id ∧ job.key = key ∧
      .admitted id key job.status confirmation ∈ past

theorem Lanes.Step.pays {hydratedStatuses : FiniteMap Key Status} {lanes next : Lanes}
    {past out : List Event} (step : lanes.Step out next)
    (ledger : Ledger hydratedStatuses past lanes.desk lanes.underway) (settled : Settled past)
    (paid : Paid past) : Paid (past ++ out) := by
  intro id key confirmation member
  rcases List.mem_append.mp member with early | late
  · obtain ⟨job, committed, sameId, sameKey, admitted⟩ := paid id key confirmation early
    exact ⟨job, List.mem_append_left _ committed, sameId, sameKey,
      List.mem_append_left _ admitted⟩
  · obtain ⟨job, committed, under, rfl, rfl⟩ := step.paid late
    obtain ⟨status, admitted⟩ := step.settled ledger settled _ _ _ _ member
    -- The job was issued with the status that was admitted under its id.
    have reached := step.ledger ledger
    have same : job.status = status := by
      rcases (ledger.job under).2 with ⟨reserved, _⟩ | issued
      · have positive := (reached.fresh (.inr ⟨confirmation, admitted⟩)).1
        rw [reserved] at positive
        exact absurd positive (Nat.lt_irrefl 0)
      · exact (reached.unique (issued.append out) (.inr ⟨confirmation, admitted⟩)).2
    exact ⟨job, List.mem_append_right _ committed, rfl, rfl, same ▸ admitted⟩

/-- The ids of the committed jobs are below the counter. -/
def Passed (past : List Event) (desk : AlarmStateCoordinator) : Prop :=
  ∀ job, .committed job ∈ past → job.id < desk.idCounter

theorem Lanes.Step.passes {hydratedStatuses : FiniteMap Key Status} {lanes next : Lanes}
    {past out : List Event} (step : lanes.Step out next)
    (ledger : Ledger hydratedStatuses past lanes.desk lanes.underway)
    (passed : Passed past lanes.desk) : Passed (past ++ out) next.desk := by
  intro job member
  rcases List.mem_append.mp member with early | late
  · exact Nat.lt_of_lt_of_le (passed job early) step.counter_le
  · have under := underway_settled (step.commits late)
    exact Nat.lt_of_lt_of_le (ledger.below (ledger.job under).2) step.counter_le

namespace Pipeline

variable {hydratedStatuses : FiniteMap Key Status} {admits : List Event → Pipeline → Action → Prop}
  {actions : List Action} {events : List Event} {final : Pipeline}

/-- What the history of a run says of the confirmed state. -/
theorem journal (run : machine.Run admits (start hydratedStatuses) actions events final) :
    ∃ lanes, Refines final lanes ∧ Journal hydratedStatuses events lanes ∧ Paid events ∧
      Passed events lanes.desk ∧ Ledger hydratedStatuses events lanes.desk lanes.underway := by
  obtain ⟨lanes, refines, ledger, journal, _, paid, passed⟩ :=
    (Refines.initial hydratedStatuses).history run.forget
      (fun past lanes => Ledger hydratedStatuses past lanes.desk lanes.underway ∧
        Journal hydratedStatuses past lanes ∧ Settled past ∧ Paid past ∧ Passed past lanes.desk)
      ⟨Ledger.start hydratedStatuses, Journal.start hydratedStatuses,
        fun _ _ _ _ member => absurd member List.not_mem_nil,
        fun _ _ _ member => absurd member List.not_mem_nil,
        fun _ member => absurd member List.not_mem_nil⟩
      (by
        rintro past lanes out next ⟨ledger, journal, settled, paid, passed⟩ step
        exact ⟨step.ledger ledger, journal.step step, step.settled ledger settled,
          step.pays ledger settled paid, step.passes ledger passed⟩)
  exact ⟨lanes, refines, journal, paid, passed, ledger⟩

/-- What is admitted from some state on has an id that was free in it. -/
theorem admitted_later {lanes : Lanes} {pipeline : Pipeline} (refines : Refines pipeline lanes)
    (run : machine.Run admits pipeline actions events final) {id : Nat} {key : Key}
    {status : Status} {confirmation : Confirmation}
    (admitted : .admitted id key status confirmation ∈ events) : lanes.desk.idCounter ≤ id := by
  obtain ⟨_, _, _, later⟩ := refines.history run
    (fun past reached => lanes.desk.idCounter ≤ reached.desk.idCounter ∧
      ∀ id key status confirmation, .admitted id key status confirmation ∈ past →
        lanes.desk.idCounter ≤ id)
    ⟨Nat.le_refl _, by simp⟩
    (by
      rintro past reached out next ⟨grows, later⟩ step
      refine ⟨Nat.le_trans grows step.counter_le, ?_⟩
      intro id key status confirmation member
      rcases List.mem_append.mp member with early | late
      · exact later id key status confirmation early
      · obtain ⟨given, waiting, same, _⟩ := step.recorded late rfl
        cases waiting <;> cases same
        exact grows)
  exact later id key status confirmation admitted

/-- A snapshot shows the confirmed state as it was written before it. -/
theorem snapshot_written {seen unseen : List Event} {sender : Nat} {statuses : List Status}
    (run : machine.Run admits (start hydratedStatuses) actions events final)
    (split : events = seen ++ .snapshot sender statuses :: unseen) :
    ∃ confirmedState, Shows confirmedState statuses ∧
      ∀ key, (confirmedState.get? key).map Prod.fst =
        (writtenOf key seen).getLast?.or (hydratedStatuses.get? key) := by
  obtain ⟨state, next, action, past, early, late, rest, occurs⟩ := run.occurs split
  obtain ⟨_, prior⟩ := occurs.prior
  obtain ⟨lanes, refines, journal, _⟩ := journal prior
  obtain ⟨now, rfl⟩ := step_stems occurs.fires (.snapshot sender statuses) (by simp)
  -- The turn does nothing else.
  have served : state.step (.input (.snapshotRequest sender) now) =
      some (state, [.snapshot sender state.coordinator.snapshotOf]) := by
    simp only [step, handle, if_pos refines.coordinatorRunning, AlarmStateCoordinator.handleMessage,
      AlarmStateCoordinator.handleSnapshot, Handled.done, coordinate_ok, Option.map_some,
      deliver_byCoordinator, List.append_nil]
  obtain ⟨_, only⟩ := Prod.mk.inj (Option.some.inj (served.symm.trans occurs.fires))
  obtain ⟨rfl, same⟩ := split_singleton only
  obtain ⟨_, rfl⟩ := Event.snapshot.inj same
  refine ⟨state.coordinator.confirmedState, state.coordinator.snapshotOf_shows, ?_⟩
  intro key
  rw [occurs.before_eq, List.append_nil, refines.desk]
  exact journal.store key

end Pipeline

namespace UserIngress

/-- What is offered later has a later channel. -/
theorem later_channels {admits : List Event → UserIngress → Action → Prop} {capacity : Nat}
    {self final : UserIngress} {actions : List Action} {more : List Event}
    (run : (machine capacity).Run admits self actions more final) {message : UserMessage}
    (offered : .enqueued message ∈ more) :
    ∃ channel, self.confirmations ≤ channel ∧ message.input.channel? = some channel := by
  have kept := run.history (fun more reached => self.confirmations ≤ reached.confirmations ∧
      ∀ message, .enqueued message ∈ more →
        ∃ channel, self.confirmations ≤ channel ∧ message.input.channel? = some channel)
    ⟨Nat.le_refl _, by simp⟩
    (by
      rintro past state action next out ⟨later, channels⟩ _ fires
      obtain ⟨grows, offers⟩ := step_offers fires
      refine ⟨Nat.le_trans later grows, fun message member => ?_⟩
      rcases List.mem_append.mp member with early | late
      · exact channels message early
      · exact ⟨_, later, (offers message late).1⟩)
  exact kept.2 message offered

theorem Step.requests_le {self next : UserIngress} {out : List Event} (step : self.Step out next) :
    self.requests ≤ next.requests := by
  cases step with
  | refuse | empty | start => exact Nat.le_succ _
  | fail | enqueue | ignore | receive | dropReceiver => exact Nat.le_refl _

theorem requests_le {admits : List Event → UserIngress → Action → Prop} {capacity : Nat}
    {self final : UserIngress} {actions : List Action} {more : List Event}
    (run : (machine capacity).Run admits self actions more final) :
    self.requests ≤ final.requests :=
  run.invariant (fun reached => self.requests ≤ reached.requests) (Nat.le_refl _)
    fun before _ fires => Nat.le_trans before (step_cases fires).requests_le

/-- A request that offered an update had arrived. -/
theorem offered_arrived {admits : List Event → UserIngress → Action → Prop} {capacity : Nat}
    {final : UserIngress} {actions : List Action} {events : List Event}
    (run : (machine capacity).Run admits new actions events final) {request : Nat}
    {input : DomainInput} (offered : .enqueued ⟨some request, input⟩ ∈ events) :
    request < final.requests := by
  obtain ⟨_, arrived⟩ := run.history (fun past reached => Intake past reached ∧
      ∀ request input, .enqueued ⟨some request, input⟩ ∈ past → request < reached.requests)
    ⟨Intake.start, by simp⟩
    (by
      rintro past state action next out ⟨intake, arrived⟩ _ fires
      have step := step_cases fires
      refine ⟨intake.step step, ?_⟩
      intro request input member
      rcases List.mem_append.mp member with early | late
      · exact Nat.lt_of_lt_of_le (arrived request input early) step.requests_le
      · cases step with
        | @enqueue message tail submissions confirmations _ owner _ others =>
            rcases List.mem_cons.mp late with same | inside
            · cases same
              exact intake.numbered request (owner request rfl)
            · obtain ⟨_, same⟩ := others _ inside
              cases same
        | _ => simp at late)
  exact arrived request input offered

end UserIngress

namespace Service

variable {config : QueueCapacityConfig} {hydratedStatuses : FiniteMap Key Status}
  {admits : List Event → Service → Action → Prop} {actions : List Action}
  {events past out : List Event} {self next : Service} {request : Nat}

theorem get?_foldl_display {sender : Nat} {statuses : List Status}
    {events : List AcornAlarms.Event} {snapshots : FiniteMap Nat (List Status)}
    (found : (events.foldl display snapshots).get? sender = some statuses) :
    snapshots.get? sender = some statuses ∨ .snapshot sender statuses ∈ events := by
  induction events generalizing snapshots with
  | nil => exact .inl found
  | cons event rest ih =>
      rcases ih found with earlier | later
      · cases event with
        | snapshot other taken =>
            rw [display, FiniteMap.get?_insert] at earlier
            split at earlier
            · next same =>
                cases earlier
                exact .inr (by rw [same]; exact List.mem_cons_self)
            · exact .inl earlier
        | _ => exact .inl earlier
      · exact .inr (List.mem_cons_of_mem _ later)

/-- What is shown to a client is a snapshot the coordinator took for it. -/
structure Pictured (past : List Event) (reached : Service) : Prop where
  taken : ∀ {sender statuses}, reached.snapshots.get? sender = some statuses →
    .runtime (.snapshot sender statuses) ∈ past
  shown : ∀ {sender statuses}, .showed sender (.ok statuses) ∈ past →
    .runtime (.snapshot sender statuses) ∈ past

namespace Pictured

theorem still (pictured : Pictured past self) (same : next.snapshots = self.snapshots)
    (unshown : ∀ sender statuses, .showed sender (.ok statuses) ∉ out) :
    Pictured (past ++ out) next where
  taken := by
    intro sender statuses found
    rw [same] at found
    exact List.mem_append_left _ (pictured.taken found)
  shown := by
    intro sender statuses member
    rcases List.mem_append.mp member with early | late
    · exact List.mem_append_left _ (pictured.shown early)
    · exact absurd late (unshown sender statuses)

theorem settle (pictured : Pictured past self) {events : List AcornAlarms.Event}
    (before : List Event) (same : next.snapshots = events.foldl display self.snapshots)
    (unshown : ∀ sender statuses, .showed sender (.ok statuses) ∉ before) :
    Pictured (past ++ (before ++ events.map .runtime)) next where
  taken := by
    intro sender statuses found
    rw [same] at found
    rcases get?_foldl_display found with earlier | later
    · exact List.mem_append_left _ (pictured.taken earlier)
    · simp [later]
  shown := by
    intro sender statuses member
    rcases List.mem_append.mp member with early | late
    · exact List.mem_append_left _ (pictured.shown early)
    · rcases List.mem_append.mp late with now | sent
      · exact absurd now (unshown sender statuses)
      · simp at sent

theorem step (pictured : Pictured past self) {action : Action}
    (fires : self.step config action = some (next, out)) : Pictured (past ++ out) next := by
  cases step_cases fires with
  | skip | decline | respond | abandonSnapshot | dropReceivers => exact pictured.still rfl (by simp)
  | call | ingress | reject | submit | trySend => exact pictured.still rfl (by simp)
  | getSnapshot =>
      rw [Service.getSnapshot]
      simp only
      split <;> exact pictured.still rfl (by simp)
  | takeUser => exact pictured.settle [.users (.received _)] rfl (by simp)
  | takeAutomated => exact pictured.settle [.automated (.received _)] rfl (by simp)
  | turn | accept => exact pictured.settle [] rfl (by simp)
  | @respondSnapshot sender statuses waits answer =>
      constructor
      · exact fun found => List.mem_append_left _ (pictured.taken found)
      · intro other shown member
        rcases List.mem_append.mp member with early | late
        · exact List.mem_append_left _ (pictured.shown early)
        · cases List.mem_singleton.mp late
          exact List.mem_append_left _ (pictured.taken answer)

end Pictured

theorem pictured (run : (machine config).Run admits (start hydratedStatuses) actions events self) :
    Pictured events self :=
  run.history Pictured ⟨by simp [start], by simp⟩ fun before _ fires => before.step fires

/-- What a handler returns to its client. -/
def Event.returned : Event → Bool
  | .responded _ _ | .showed _ (.ok _) => true
  | _ => false

theorem Event.runtime?_returned {event : Event} (returned : event.returned = true) :
    event.runtime? = none := by
  cases event <;> simp_all [Event.returned, Event.runtime?]

/-- A handler that returns takes no other part in the step. -/
theorem step_returned {early late : List Event} {event : Event} {action : Action}
    (returned : event.returned = true)
    (fires : self.step config action = some (next, early ++ event :: late)) :
    early = [] ∧ late = [] := by
  have member : event ∈ early ++ event :: late := by simp
  generalize reported : early ++ event :: late = out at fires member
  have alone : ∀ {last}, early ++ event :: late = [last] → early = [] ∧ late = [] := by
    intro last single
    cases early with
    | nil => exact ⟨rfl, (List.cons.inj single).2⟩
    | cons head tail => simp at single
  cases step_cases fires with
  | respond | respondSnapshot => exact alone reported
  | abandonSnapshot =>
      obtain rfl := List.mem_singleton.mp member
      cases returned
  | getSnapshot =>
      rw [Service.getSnapshot] at member
      simp only at member
      split at member <;>
        · obtain rfl := List.mem_singleton.mp member
          cases returned
  | skip | dropReceivers => cases member
  | decline =>
      obtain rfl := List.mem_singleton.mp member
      cases returned
  | submit | takeUser | takeAutomated =>
      obtain rfl | inside := List.mem_cons.mp member
      · cases returned
      · obtain ⟨_, _, rfl⟩ := List.mem_map.mp inside
        cases returned
  | call | ingress | reject | trySend | turn | accept =>
      obtain ⟨_, _, rfl⟩ := List.mem_map.mp member
      cases returned

/-- A request that arrives gets the next number. -/
theorem step_submitted {keys : List Key} {taken : UserAction} {user : String} {action : Action}
    (fires : self.step config action = some (next, out))
    (member : .submitted request keys taken user ∈ out) :
    request = self.users.requests ∧ self.users.requests < next.users.requests ∧
      ∀ {number others asked name}, .submitted number others asked name ∈ out →
        others = keys ∧ asked = taken ∧ name = user := by
  cases step_cases fires with
  | @submit _ devices asked name parsedKeys _ parsed =>
      have only : ∀ {number others moved person},
          .submitted number others moved person ∈ Event.submitted self.users.requests parsedKeys
            asked name :: (self.users.submit devices asked name).2.map .users →
          number = self.users.requests ∧ others = parsedKeys ∧ moved = asked ∧ person = name := by
        intro number others moved person inside
        rcases List.mem_cons.mp inside with same | inside
        · cases same
          exact ⟨rfl, rfl, rfl, rfl⟩
        · simp at inside
      obtain ⟨rfl, rfl, rfl, rfl⟩ := only member
      refine ⟨rfl, ?_, fun inside => (only inside).2⟩
      rw [UserIngress.submit_ok parsed]
      split <;> exact Nat.lt_succ_self _
  | getSnapshot =>
      rw [Service.getSnapshot] at member
      simp only at member
      split at member <;> simp at member
  | _ => simp at member

/-- The numbers of the requests grow. -/
theorem requests_le {action : Action} (fires : self.step config action = some (next, out)) :
    self.users.requests ≤ next.users.requests := by
  cases moves : (usersPart config).turn self action with
  | none =>
      obtain ⟨same, _⟩ := (usersPart config).idle fires moves
      exact Nat.le_of_eq (congrArg UserIngress.requests same.symm)
  | some taken => exact (UserIngress.step_cases ((usersPart config).moves fires moves)).requests_le

/-- A number is that of one request. -/
theorem submitted_once
    (run : (machine config).Run admits (start hydratedStatuses) actions events self)
    {keys others : List Key} {taken asked : UserAction} {user name : String}
    (first : .submitted request keys taken user ∈ events)
    (second : .submitted request others asked name ∈ events) :
    keys = others ∧ taken = asked ∧ user = name := by
  obtain ⟨_, once⟩ := run.history (fun past reached =>
      (∀ request keys taken user, .submitted request keys taken user ∈ past →
        request < reached.users.requests) ∧
      ∀ request keys taken user others asked name, .submitted request keys taken user ∈ past →
        .submitted request others asked name ∈ past →
        keys = others ∧ taken = asked ∧ user = name)
    ⟨by simp, by simp⟩
    (by
      rintro past reached action next out ⟨below, once⟩ _ fires
      constructor
      · intro request keys taken user member
        rcases List.mem_append.mp member with early | late
        · exact Nat.lt_of_lt_of_le (below request keys taken user early) (requests_le fires)
        · obtain ⟨rfl, grows, _⟩ := step_submitted fires late
          exact grows
      · intro request keys taken user others asked name first second
        rcases List.mem_append.mp first with early | late
        · rcases List.mem_append.mp second with early' | late'
          · exact once _ _ _ _ _ _ _ early early'
          · have known := below _ _ _ _ early
            have fresh := (step_submitted fires late').1
            omega
        · rcases List.mem_append.mp second with early' | late'
          · have known := below _ _ _ _ early'
            have fresh := (step_submitted fires late).1
            omega
          · exact (step_submitted fires late').2.2 late)
  exact once _ _ _ _ _ _ _ first second

/-- A run cut between two steps. -/
structure Cut (config : QueueCapacityConfig) (hydratedStatuses : FiniteMap Key Status)
    (before after : List Event) (state final : Service) : Prop where
  prior : ∃ actions, (machine config).Run Machine.Every (start hydratedStatuses) actions before
    state
  later : ∃ actions, (machine config).Run Machine.Every state actions after final

/-- A run is cut before the step that reports an event first. -/
theorem cut_of_run
    (run : (machine config).Run admits (start hydratedStatuses) actions events self)
    {before after : List Event} {event : Event} (split : events = before ++ event :: after)
    (first : ∀ {state next : Service} {action early late},
      state.step config action = some (next, early ++ event :: late) → early = []) :
    ∃ state, Cut config hydratedStatuses before (event :: after) state self := by
  obtain ⟨state, next, action, past, early, late, rest, occurs⟩ := run.occurs split
  obtain rfl := first occurs.fires
  obtain rfl : before = past := occurs.before_eq.trans (List.append_nil _)
  obtain ⟨_, prior⟩ := occurs.prior
  obtain ⟨_, later⟩ := occurs.later
  have step : (machine config).Run Machine.Every state [action] (event :: late) next :=
    .snoc .refl trivial occurs.fires
  have whole := step.append (fun _ _ _ _ _ => trivial) later
  have joined : event :: late ++ rest = event :: after := by rw [List.cons_append, occurs.after_eq]
  rw [joined] at whole
  exact ⟨state, ⟨_, prior.forget⟩, ⟨_, whole⟩⟩

/-- A run up to what a handler returned. -/
theorem through_of_run
    (run : (machine config).Run admits (start hydratedStatuses) actions events self)
    {before after : List Event} {event : Event} (split : events = before ++ event :: after)
    (returned : event.returned = true) :
    ∃ actions reached, (machine config).Run Machine.Every (start hydratedStatuses) actions
      (before ++ [event]) reached := by
  obtain ⟨state, reached, action, past, early, late, rest, occurs⟩ := run.occurs split
  obtain ⟨rfl, rfl⟩ := step_returned returned occurs.fires
  obtain rfl : before = past := occurs.before_eq.trans (List.append_nil _)
  obtain ⟨_, prior⟩ := occurs.prior
  exact ⟨_, reached, prior.forget.snoc trivial occurs.fires⟩

namespace Cut

variable {before after : List Event} {state final : Service}

/-- What was received before the cut was not offered after it. -/
theorem unoffered (cut : Cut config hydratedStatuses before after state final)
    {message other : UserMessage} (received : .users (.received message) ∈ before)
    (offered : .users (.enqueued other) ∈ after) :
    message.input.channel? ≠ other.input.channel? := by
  obtain ⟨_, prior⟩ := cut.prior
  obtain ⟨_, later⟩ := cut.later
  obtain ⟨_, users⟩ := (usersPart config).run_every prior
  obtain ⟨_, more⟩ := (usersPart config).run_every later
  obtain ⟨channel, below, named⟩ := (UserIngress.numbered users).fresh
    ((UserIngress.intake users).taken _ (mem_users.mpr received))
  obtain ⟨later, above, given⟩ := UserIngress.later_channels more (mem_users.mpr offered)
  intro same
  obtain rfl := Option.some.inj (named.symm.trans (same.trans given))
  exact absurd below (Nat.not_lt.mpr above)

/-- A request that arrives after the cut offered nothing before it. -/
theorem unsubmitted (cut : Cut config hydratedStatuses before after state final)
    {keys : List Key} {taken : UserAction} {user : String} {input : DomainInput}
    (submitted : .submitted request keys taken user ∈ after) :
    .users (.enqueued ⟨some request, input⟩) ∉ before := by
  intro offered
  obtain ⟨_, prior⟩ := cut.prior
  obtain ⟨_, later⟩ := cut.later
  obtain ⟨_, users⟩ := (usersPart config).run_every prior
  have below := UserIngress.offered_arrived users (mem_users.mpr offered)
  obtain ⟨first, rest, split⟩ := List.append_of_mem submitted
  obtain ⟨middle, next, action, past, early, late, more, occurs⟩ := later.occurs split
  obtain ⟨_, between⟩ := occurs.prior
  obtain ⟨_, moved⟩ := (usersPart config).run_every between
  have grows := UserIngress.requests_le moved
  have arrives := (step_submitted occurs.fires (List.mem_append_right _ List.mem_cons_self)).1
  simp only [usersPart] at below grows
  omega

/-- A snapshot that is asked for after the cut is taken after it. -/
theorem untaken (cut : Cut config hydratedStatuses before after state final)
    {sender : Nat} {statuses : List Status}
    (asked : .users (.enqueued ⟨none, .snapshotRequest sender⟩) ∈ after) :
    .snapshot sender statuses ∉ tasks before := by
  intro member
  obtain ⟨_, prior⟩ := cut.prior
  obtain ⟨owner, received⟩ := (dealt prior).traced (mem_tasks.mp member)
  exact cut.unoffered received asked rfl

/-- The job of a request that arrives after the cut has an id that was free at the cut. -/
theorem unissued (cut : Cut config hydratedStatuses before after state final)
    {keys : List Key} {taken asked : UserAction} {user name : String} {key : Key}
    {channel : Confirmation} {job : Job} (submitted : .submitted request keys taken user ∈ after)
    (offered : Offered (before ++ after) request asked name key channel)
    (admitted : .admitted job.id key job.status channel ∈ tasks (before ++ after))
    {lanes : Lanes} (refines : Refines state.runtime.flatten lanes) :
    lanes.desk.idCounter ≤ job.id := by
  obtain ⟨_, prior⟩ := cut.prior
  obtain ⟨_, later⟩ := cut.later
  rw [tasks, List.filterMap_append] at admitted
  obtain ⟨_, rest⟩ := tasks_from later
  refine Pipeline.admitted_later refines rest ((List.mem_append.mp admitted).resolve_left ?_)
  -- Nothing of the request was admitted before the cut.
  intro early
  obtain ⟨owner, moved, person, now, received, _⟩ := (dealt prior).traced (mem_tasks.mp early)
  obtain inside | outside := List.mem_append.mp offered
  · exact cut.unsubmitted submitted inside
  · exact cut.unoffered received outside rfl

end Cut

/-- The history of the tasks up to a return and from it on. -/
theorem tasks_split {before after : List Event} {event : Event}
    (returned : event.returned = true) :
    tasks (before ++ event :: after) = tasks before ++ tasks after := by
  rw [tasks, List.filterMap_append, List.filterMap_cons_none (Event.runtime?_returned returned)]
  rfl

theorem tasks_returned {before : List Event} {event : Event} (returned : event.returned = true) :
    tasks (before ++ [event]) = tasks before :=
  (tasks_split returned).trans (List.append_nil _)

/-- A return offers no update. -/
theorem Requested.before {event : Event} {keys : List Key} {taken : UserAction} {user : String}
    {channels : List Confirmation}
    (requested : Requested (past ++ [event]) request keys taken user channels)
    (returned : event.returned = true) : Requested past request keys taken user channels := by
  have earlier : ∀ {other}, other ∈ past ++ [event] → other.returned = false → other ∈ past := by
    intro other member silent
    obtain early | late := List.mem_append.mp member
    · exact early
    · obtain rfl := List.mem_singleton.mp late
      rw [returned] at silent
      cases silent
  exact
    { submitted := earlier requested.submitted rfl
      offered := requested.offered.imp fun _ _ offered => earlier offered rfl
      distinct := requested.distinct }

theorem JobOf.before {event : Event} {taken : UserAction} {user : String} {key : Key}
    {channel : Confirmation} {job : Job} (owns : JobOf (past ++ [event]) taken user key channel job)
    (returned : event.returned = true) : JobOf past taken user key channel job where
  named := owns.named
  built := owns.built
  admitted := tasks_returned returned ▸ owns.admitted

/-- A snapshot that was asked for after a return was taken after it. -/
theorem shown_after
    (run : (machine config).Run admits (start hydratedStatuses) actions events self)
    {before after : List Event} {event : Event} (split : events = before ++ event :: after)
    (returned : event.returned = true) {sender : Nat} {statuses : List Status}
    (asked : .users (.enqueued ⟨none, .snapshotRequest sender⟩) ∈ after)
    (showed : .showed sender (.ok statuses) ∈ events) :
    ∃ seen unseen, tasks events = tasks before ++ seen ++ .snapshot sender statuses :: unseen := by
  obtain ⟨state, cut⟩ := cut_of_run run split fun fires => (step_returned returned fires).1
  have taken := mem_tasks.mpr ((pictured run).shown showed)
  rw [split, tasks_split returned] at taken ⊢
  obtain ⟨seen, unseen, order⟩ :=
    List.append_of_mem ((List.mem_append.mp taken).resolve_left
      (cut.untaken (List.mem_cons_of_mem _ asked)))
  exact ⟨seen, unseen, by rw [order, List.append_assoc]⟩

/-- A pair of the devices of a request and the channels of its updates was offered. -/
theorem Requested.pair {keys : List Key} {taken : UserAction} {user : String}
    {channels : List Confirmation} (requested : Requested past request keys taken user channels)
    {key : Key} {channel : Confirmation} (paired : (key, channel) ∈ keys.zip channels) :
    Offered past request taken user key channel :=
  List.forall₂_zip requested.offered paired

/-- Each update of a request answered `Ok` was admitted and committed. -/
theorem responded_committed
    (run : (machine config).Run admits (start hydratedStatuses) actions events self)
    (responded : .responded request (.ok ()) ∈ events) :
    ∃ keys taken user channels, Requested events request keys taken user channels ∧
      ∀ key channel, (key, channel) ∈ keys.zip channels →
        ∃ job, JobOf events taken user key channel job ∧ .committed job ∈ tasks events := by
  obtain ⟨keys, taken, user, channels, answers, requested, sent, given⟩ :=
    (dealt run).responses responded
  refine ⟨keys, taken, user, channels, requested, fun key channel paired => ?_⟩
  -- Every answer was `Ok`.
  have ok := (handleConfirmation_ok _).mp given.symm
  have lengths := requested.offered.length_eq
  obtain ⟨counts, each⟩ := List.forall₂_iff_get.mp sent
  obtain ⟨index, inside, same⟩ := List.getElem_of_mem paired
  rw [List.getElem_zip, Prod.mk.injEq] at same
  obtain ⟨rfl, rfl⟩ := same
  rw [List.length_zip] at inside
  have answered := each index (by omega) (by omega)
  have confirmed := ok (keys[index], some answers[index])
    (List.mem_iff_getElem.mpr ⟨index, by simp; omega, by simp⟩)
  rw [List.get_eq_getElem, List.get_eq_getElem, Option.some.inj confirmed] at answered
  obtain ⟨error, wrong, _⟩ | ⟨id, named, resolved⟩ := answered
  · cases wrong
  · obtain ⟨turns, runs⟩ := tasks_run run
    obtain ⟨_, _, _, paid, _⟩ := Pipeline.journal runs
    obtain ⟨job, committed, rfl, named, admitted⟩ := paid _ _ _ (mem_tasks.mpr resolved)
    obtain ⟨_, owns⟩ := job_of_admitted run (requested.pair paired) admitted named
    exact ⟨job, owns, committed⟩

/-- A snapshot asked for after a request was answered `Ok` shows a confirmed state in which
every device of the request has the status of the job of the request's update, or of a job
committed after it. -/
theorem reads_own_writes {before after : List Event} {sender : Nat} {statuses : List Status}
    (run : (machine config).Run admits (start hydratedStatuses) actions events self)
    (split : events = before ++ .responded request (.ok ()) :: after)
    (asked : .users (.enqueued ⟨none, .snapshotRequest sender⟩) ∈ after)
    (showed : .showed sender (.ok statuses) ∈ events) :
    ∃ keys taken user channels seen unseen confirmedState,
      Requested before request keys taken user channels ∧
      tasks events = seen ++ .snapshot sender statuses :: unseen ∧
      Shows confirmedState statuses ∧
      ∀ key channel, (key, channel) ∈ keys.zip channels → ∃ job older newer,
        JobOf before taken user key channel job ∧
        committedOf key seen = older ++ job :: newer ∧
        (confirmedState.get? key).map Prod.fst = some (newer.getLast?.getD job).status := by
  obtain ⟨turns, runs⟩ := tasks_run run
  obtain ⟨_, _, through⟩ := through_of_run run split rfl
  obtain ⟨between, unseen, order⟩ := shown_after run split rfl asked showed
  obtain ⟨confirmedState, shows, written⟩ := Pipeline.snapshot_written runs order
  obtain ⟨keys, taken, user, channels, requested, committed⟩ :=
    responded_committed through (List.mem_append_right _ (List.mem_singleton_self _))
  refine ⟨keys, taken, user, channels, _, unseen, confirmedState, requested.before rfl, order,
    shows, ?_⟩
  intro key channel paired
  obtain ⟨job, owns, done⟩ := committed key channel paired
  rw [tasks_returned rfl] at done
  obtain ⟨older, newer, places⟩ := List.append_of_mem (mem_committedOf.mpr ⟨done, owns.named⟩)
  refine ⟨job, older, newer ++ committedOf key between, owns.before rfl, ?_, ?_⟩
  · rw [committedOf_append, places, List.append_assoc, List.cons_append]
  · rw [written, writtenOf_eq_map, committedOf_append, places, List.append_assoc,
      List.cons_append, List.map_append, List.getLast?_append, List.map_cons, List.getLast?_cons,
      List.getLast?_map]
    cases (newer ++ committedOf key between).getLast? <;> rfl

/-- A snapshot asked for after another was shown shows, for every device, what that one showed or
what was written since. -/
theorem reads_monotonic {before after : List Event} {first second : Nat}
    {earlier later : List Status}
    (run : (machine config).Run admits (start hydratedStatuses) actions events self)
    (split : events = before ++ .showed first (.ok earlier) :: after)
    (asked : .users (.enqueued ⟨none, .snapshotRequest second⟩) ∈ after)
    (showed : .showed second (.ok later) ∈ events) :
    ∃ seen between unseen earlierState laterState,
      tasks events = seen ++ .snapshot first earlier :: between ++
        .snapshot second later :: unseen ∧
      Shows earlierState earlier ∧ Shows laterState later ∧
      ∀ key, (laterState.get? key).map Prod.fst =
        (writtenOf key between).getLast?.or ((earlierState.get? key).map Prod.fst) := by
  obtain ⟨turns, runs⟩ := tasks_run run
  obtain ⟨_, _, through⟩ := through_of_run run split rfl
  obtain ⟨rest, unseen, order⟩ := shown_after run split rfl asked showed
  have taken := mem_tasks.mpr
    ((pictured through).shown (List.mem_append_right _ (List.mem_singleton_self _)))
  rw [tasks_returned rfl] at taken
  obtain ⟨seen, more, places⟩ := List.append_of_mem taken
  rw [places] at order
  obtain ⟨laterState, shownLater, writtenLater⟩ := Pipeline.snapshot_written runs order
  have ordered : tasks events = seen ++ .snapshot first earlier ::
      (more ++ rest ++ .snapshot second later :: unseen) := by
    rw [order]
    simp
  obtain ⟨earlierState, shownEarlier, writtenEarlier⟩ := Pipeline.snapshot_written runs ordered
  refine ⟨seen, more ++ rest, unseen, earlierState, laterState, ?_, shownEarlier, shownLater, ?_⟩
  · rw [ordered]
    simp
  · intro key
    have order : writtenOf key (seen ++ .snapshot first earlier :: more ++ rest) =
        writtenOf key seen ++ writtenOf key (more ++ rest) := by
      rw [List.append_assoc, List.cons_append, writtenOf_append]
      rfl
    rw [writtenLater, writtenEarlier, order, List.getLast?_append, Option.or_assoc]

/-- Of two requests that were both answered `Ok`, the second submitted after the answer to the
first, the job of every update of the second is committed after that of the first for the same
device, under a larger id than all that was committed when the first was answered. -/
theorem writes_ordered {before after : List Event} {first second : Nat}
    {keys : List Key} {taken : UserAction} {user : String}
    (run : (machine config).Run admits (start hydratedStatuses) actions events self)
    (split : events = before ++ .responded first (.ok ()) :: after)
    (submitted : .submitted second keys taken user ∈ after)
    (responded : .responded second (.ok ()) ∈ events) :
    ∃ firstKeys firstTaken firstUser firstChannels channels,
      Requested before first firstKeys firstTaken firstUser firstChannels ∧
      Requested events second keys taken user channels ∧
      ∀ key one two, (key, one) ∈ firstKeys.zip firstChannels → (key, two) ∈ keys.zip channels →
        ∃ done job older between newer,
          JobOf before firstTaken firstUser key one done ∧ JobOf events taken user key two job ∧
          committedOf key (tasks events) = older ++ done :: between ++ job :: newer ∧
          ∀ other, .committed other ∈ tasks before → other.id < job.id := by
  obtain ⟨_, _, through⟩ := through_of_run run split rfl
  obtain ⟨state, cut⟩ := cut_of_run run split fun fires => (step_returned rfl fires).1
  obtain ⟨_, prior⟩ := cut.prior
  obtain ⟨_, earlier⟩ := tasks_run prior
  obtain ⟨lanes, refines, _, _, passed, _⟩ := Pipeline.journal earlier
  obtain ⟨firstKeys, firstTaken, firstUser, firstChannels, arrived, answered⟩ :=
    responded_committed through (List.mem_append_right _ (List.mem_singleton_self _))
  obtain ⟨others, asked, name, channels, requested, paid⟩ := responded_committed run responded
  have arrives : .submitted second keys taken user ∈ events := by
    rw [split]
    exact List.mem_append_right _ (List.mem_cons_of_mem _ submitted)
  obtain ⟨rfl, rfl, rfl⟩ := submitted_once run arrives requested.submitted
  refine ⟨firstKeys, firstTaken, firstUser, firstChannels, channels, arrived.before rfl, requested,
    ?_⟩
  intro key one two inFirst inSecond
  obtain ⟨done, owned, finished⟩ := answered key one inFirst
  rw [tasks_returned rfl] at finished
  obtain ⟨job, owns, committed⟩ := paid key two inSecond
  -- The job of the second request has an id that was free at the first answer.
  have free : lanes.desk.idCounter ≤ job.id :=
    cut.unissued (List.mem_cons_of_mem _ submitted) (split ▸ requested.pair inSecond)
      (split ▸ owns.admitted) refines
  have larger : ∀ other, .committed other ∈ tasks before → other.id < job.id :=
    fun other done => Nat.lt_of_lt_of_le (passed other done) free
  have late : .committed job ∈ tasks after := by
    rw [split, tasks_split rfl] at committed
    refine (List.mem_append.mp committed).resolve_left fun early => ?_
    exact Nat.lt_irrefl _ (larger job early)
  obtain ⟨older, between, early⟩ :=
    List.append_of_mem (mem_committedOf.mpr ⟨finished, owned.named⟩)
  obtain ⟨more, newer, order⟩ := List.append_of_mem (mem_committedOf.mpr ⟨late, owns.named⟩)
  refine ⟨done, job, older, between ++ more, newer, owned.before rfl, owns, ?_, larger⟩
  rw [split, tasks_split rfl, committedOf_append, early, order]
  simp only [List.append_assoc, List.cons_append]

end Service

end

section

attribute [local instance] asciiPlatform

namespace Service

/-- A history up to the first occurrence of an event, and what comes after it. -/
def cutAt (event : Event) (events : List Event) : List Event × List Event :=
  (events.take (events.idxOf event), events.drop (events.idxOf event + 1))

/-- Two snapshots are asked for after the bypass was answered. -/
def bypassShown : List Action :=
  bypassAnswered ++ [Action.getSnapshot, .takeUser 0, .respondSnapshot 1, .getSnapshot,
    .takeUser 0, .respondSnapshot 2]

/-- The snapshot shows the pump as the operator left it. -/
theorem reads_own_writes_bypass : ∃ final events before after statuses keys taken user channels seen
    unseen confirmedState,
    (machine narrow).Run Machine.Every (start .empty) bypassShown events final ∧
      events = before ++ .responded 0 (.ok ()) :: after ∧
      Requested before 0 keys taken user channels ∧
      tasks events = seen ++ .snapshot 1 statuses :: unseen ∧
      Shows confirmedState statuses ∧
      ∀ key channel, (key, channel) ∈ keys.zip channels → ∃ job older newer,
        JobOf before taken user key channel job ∧
        committedOf key seen = older ++ job :: newer ∧
        (confirmedState.get? key).map Prod.fst = some (newer.getLast?.getD job).status := by
  obtain ⟨final, events, run, check⟩ := run_of_check narrow bypassShown
    (fun final events => (final.snapshots.get? 1).any fun statuses =>
      let cut := cutAt (.responded 0 (.ok ())) events
      decide (events = cut.1 ++ .responded 0 (.ok ()) :: cut.2 ∧
        .users (.enqueued ⟨none, .snapshotRequest 1⟩) ∈ cut.2 ∧
        .showed 1 (.ok statuses) ∈ events)) (by decide)
  obtain ⟨statuses, _, check⟩ := (Option.any_eq_true _ _).mp check
  obtain ⟨split, asked, showed⟩ := of_decide_eq_true check
  obtain ⟨keys, taken, user, channels, seen, unseen, confirmedState, rest⟩ :=
    reads_own_writes run split asked showed
  exact ⟨final, events, _, _, statuses, keys, taken, user, channels, seen, unseen, confirmedState,
    run, split, rest⟩

/-- The second snapshot shows what the first one did. -/
theorem reads_monotonic_bypass : ∃ final events earlier later seen between unseen earlierState
    laterState,
    (machine narrow).Run Machine.Every (start .empty) bypassShown events final ∧
      tasks events = seen ++ .snapshot 1 earlier :: between ++ .snapshot 2 later :: unseen ∧
      Shows earlierState earlier ∧ Shows laterState later ∧
      ∀ key, (laterState.get? key).map Prod.fst =
        (writtenOf key between).getLast?.or ((earlierState.get? key).map Prod.fst) := by
  obtain ⟨final, events, run, check⟩ := run_of_check narrow bypassShown
    (fun final events => (final.snapshots.get? 1).any fun earlier =>
      (final.snapshots.get? 2).any fun later =>
        let cut := cutAt (.showed 1 (.ok earlier)) events
        decide (events = cut.1 ++ .showed 1 (.ok earlier) :: cut.2 ∧
          .users (.enqueued ⟨none, .snapshotRequest 2⟩) ∈ cut.2 ∧
          .showed 2 (.ok later) ∈ events)) (by decide)
  obtain ⟨earlier, _, check⟩ := (Option.any_eq_true _ _).mp check
  obtain ⟨later, _, check⟩ := (Option.any_eq_true _ _).mp check
  obtain ⟨split, asked, showed⟩ := of_decide_eq_true check
  obtain ⟨seen, between, unseen, earlierState, laterState, rest⟩ :=
    reads_monotonic run split asked showed
  exact ⟨final, events, earlier, later, seen, between, unseen, earlierState, laterState, run, rest⟩

/-- The pump is activated after its bypass was answered. -/
def bypassActivated : List Action :=
  bypassAnswered ++ [Action.request (.activate ["PUMP#Analog"] "operator"), .trySend 1,
    .takeUser 0] ++ carry ++ deliver ++ [.respond 1]

/-- The pump is written twice, in the order of the requests. -/
theorem writes_ordered_bypass : ∃ final events before one two done job older between newer,
    (machine narrow).Run Machine.Every (start .empty) bypassActivated events final ∧
      JobOf before (.bypass none) "operator" pump one done ∧
      JobOf events .activate "operator" pump two job ∧
      committedOf pump (tasks events) = older ++ done :: between ++ job :: newer := by
  obtain ⟨final, events, run, check⟩ := run_of_check narrow bypassActivated
    (fun _ events =>
      let cut := cutAt (.responded 0 (.ok ())) events
      decide (events = cut.1 ++ .responded 0 (.ok ()) :: cut.2 ∧
        .submitted 0 [pump] (.bypass none) "operator" ∈ cut.1 ∧
        .submitted 1 [pump] .activate "operator" ∈ cut.2 ∧
        .responded 1 (.ok ()) ∈ events)) (by decide)
  obtain ⟨split, bypassed, submitted, responded⟩ := of_decide_eq_true check
  obtain ⟨keys, taken, user, firstChannels, channels, arrived, requested, written⟩ :=
    writes_ordered run split submitted responded
  have early : ∀ {event}, event ∈ (cutAt (.responded 0 (.ok ())) events).1 → event ∈ events := by
    intro event member
    rw [split]
    exact List.mem_append_left _ member
  obtain ⟨rfl, rfl, rfl⟩ := submitted_once run (early bypassed) (early arrived.submitted)
  -- Each of the two requests has one channel.
  have single : ∀ {past : List Event} {request taken user} {channels : List Confirmation},
      List.Forall₂ (Offered past request taken user) [pump] channels → ∃ one, channels = [one] := by
    intro past request taken user channels offered
    cases offered with
    | cons _ rest =>
        cases rest
        exact ⟨_, rfl⟩
  obtain ⟨one, rfl⟩ := single arrived.offered
  obtain ⟨two, rfl⟩ := single requested.offered
  obtain ⟨done, job, older, between, newer, owned, owns, order, _⟩ :=
    written pump one two (List.mem_singleton_self _) (List.mem_singleton_self _)
  exact ⟨final, events, _, one, two, done, job, older, between, newer, run, owned, owns, order⟩

end Service

end

end AcornAlarms
