import AcornAlarms.Lanes.Reports
import AcornAlarms.Properties.Answers
import AcornAlarms.Properties.Overload

/-!
# From the stream to the snapshot

Between the entries of the stream and what a snapshot shows stand the overload coalescing, the
bounded channels, the retries of the publish engine and the traffic of all other keys. Once a key
that no operator touched is settled, none of them shows: the key is where its entries, handled
one after the other, would have left it.
-/

namespace AcornAlarms

open Library

section

variable [Platform]

namespace AutomatedIngress

/-- Only a call submits, and only the coordinator receives. -/
theorem step_reports {self next : AutomatedIngress} {capacity : Nat} {action : Action}
    {out : List Event} (fires : self.step capacity action = some (next, out)) :
    (∀ status, .submitted status ∈ out → action = .call status) ∧
      ((∃ status, .received status ∈ out) → action = .receive) := by
  cases action with
  | call status =>
      simp only [step] at fires
      split at fires
      · cases fires
        simp
      · cases fires
  | readMode =>
      simp only [step, readMode] at fires
      split at fires
      · split at fires <;> cases fires <;> simp
      · cases fires
  | trySend =>
      simp only [step, trySend] at fires
      split at fires
      · split at fires <;> cases fires <;> simp
      · cases fires
  | retain =>
      simp only [step, retain] at fires
      split at fires <;> cases fires
      simp
  | notified =>
      simp only [step, notified, Option.ite_none_right_eq_some] at fires
      obtain ⟨_, same⟩ := fires
      cases same
      simp
  | popFront =>
      simp only [step, popFront, Option.ite_none_right_eq_some] at fires
      obtain ⟨_, same⟩ := fires
      split at same <;> cases same <;> simp
  | send =>
      simp only [step, send] at fires
      split at fires
      · simp only [Option.ite_none_right_eq_some] at fires
        obtain ⟨_, same⟩ := fires
        cases same
        simp
      · cases fires
  | receive =>
      simp only [step, receive] at fires
      split at fires <;> cases fires
      simp

end AutomatedIngress

namespace Service

variable {config : QueueCapacityConfig} {hydratedStatuses : FiniteMap Key Status}
  {admits : List Event → Service → Action → Prop} {actions : List Action}
  {events past out : List Event} {self next : Service} {key : Key}

/-- The updates of a key the reader forwarded. -/
def forwarded (key : Key) (events : List Event) : List Status :=
  AutomatedIngress.statusesOf AutomatedIngress.Event.submitted? key
    (events.filterMap Event.automated?)

/-- The updates of a key the coordinator received. -/
def received (key : Key) (events : List Event) : List Status :=
  AutomatedIngress.statusesOf AutomatedIngress.Event.received? key
    (events.filterMap Event.automated?)

theorem received_append (key : Key) (first second : List Event) :
    received key (first ++ second) = received key first ++ received key second := by
  rw [received, List.filterMap_append, AutomatedIngress.statusesOf_append]
  rfl

theorem tasks_append (first second : List Event) :
    tasks (first ++ second) = tasks first ++ tasks second :=
  List.filterMap_append

/-- The reader has returned, the overload task waits, and nothing of the key is on its way. -/
structure CaughtUp (reached : Service) (key : Key) : Prop where
  caller : reached.automated.caller = .idle
  drain : reached.automated.drain = .waiting
  permit : reached.automated.overloadNotify = false
  queue : reached.automated.queue = []
  outstanding : reached.runtime.flatten.outstanding key = []

/-- No update an operator sent for the key was taken. -/
def Untouched (key : Key) (past : List Event) : Prop :=
  ∀ owner taken user channel,
    .users (.received ⟨owner, .userUpdate key taken user channel⟩) ∉ past

/-- The ingress of a run. -/
theorem ingress_run
    (run : (machine config).Run admits (start hydratedStatuses) actions events self) :
    ∃ moves, (AutomatedIngress.machine config.automated).Run Machine.Every .new moves
      (events.filterMap Event.automated?) self.automated :=
  (automatedPart config).run_every run

/-- What the reader submits was read from the stream. -/
theorem submitted_redis
    (run : (machine config).Run admits (start hydratedStatuses) actions events self)
    {status : Status} (submitted : .automated (.submitted status) ∈ events) : FromRedis status := by
  have all := run.history (fun past _ => ∀ status, .automated (.submitted status) ∈ past →
      FromRedis status) (by simp) (by
    intro past reached action next out before _ fires status member
    rcases List.mem_append.mp member with early | late
    · exact before status early
    · cases step_cases fires with
      | @call payload now given _ _ forwards steps =>
          have called := (AutomatedIngress.step_reports steps).1 status (by simpa using late)
          obtain rfl := AutomatedIngress.Action.call.inj called
          exact ⟨payload, now, forwards⟩
      | ingress internal steps =>
          obtain rfl := (AutomatedIngress.step_reports steps).1 status (by simpa using late)
          cases internal
      | getSnapshot =>
          rw [Service.getSnapshot] at late
          simp only at late
          split at late <;> simp at late
      | _ => simp at late)
  exact all status submitted

/-- What waits in the automated queue was read from the stream. -/
theorem queued_redis
    (run : (machine config).Run admits (start hydratedStatuses) actions events self)
    {status : Status} (queued : status ∈ self.automated.queue) : FromRedis status := by
  obtain ⟨_, moves⟩ := ingress_run run
  obtain ⟨_, accounts⟩ := AutomatedIngress.reached_accounts moves
  have delivered : status ∈ AutomatedIngress.statusesOf AutomatedIngress.Event.delivered?
      (Key.from status) (events.filterMap Event.automated?) := by
    rw [AutomatedIngress.statusesOf, accounts.queue]
    simp [queued]
  have returned := (accounts.coalesced (Key.from status)).inside.subset
    (List.mem_append_left _ delivered)
  have submitted : status ∈ (events.filterMap Event.automated?).filterMap
      AutomatedIngress.Event.submitted? := by
    rw [accounts.calls]
    exact List.mem_append_left _ (List.mem_filter.mp returned).1
  obtain ⟨inner, inside, same⟩ := List.mem_filterMap.mp submitted
  obtain ⟨outer, member, named⟩ := List.mem_filterMap.mp inside
  cases outer <;> cases named
  cases inner <;> cases same
  exact submitted_redis run member

/-- A message an operator sent is no automated update. -/
theorem queued_asked
    (run : (machine config).Run admits (start hydratedStatuses) actions events self)
    {message : UserMessage} (queued : message ∈ self.users.queue) (status : Status) :
    message.input ≠ .automatedUpdate status := by
  obtain ⟨_, users⟩ := (usersPart config).run_every run
  obtain ⟨channel, _, named⟩ := (UserIngress.numbered users).fresh
    ((UserIngress.intake users).queued _ queued)
  intro same
  rw [same] at named
  cases named

/-- The tasks' part and the coordinator's share of what one side reports. -/
theorem runtime_reports (turns : List AcornAlarms.Event) (key : Key) :
    tasks (turns.map .runtime) = turns ∧ received key (turns.map .runtime) = [] := by
  rw [tasks, received, List.filterMap_map, List.filterMap_map, Event.runtime?_runtime,
    Event.automated?_runtime, List.filterMap_some, List.filterMap_none]
  exact ⟨rfl, rfl⟩

theorem users_reports (moves : List UserIngress.Event) (key : Key) :
    tasks (moves.map .users) = [] ∧ received key (moves.map .users) = [] := by
  rw [tasks, received, List.filterMap_map, List.filterMap_map, Event.runtime?_users,
    Event.automated?_users, List.filterMap_none, List.filterMap_none]
  exact ⟨rfl, rfl⟩

theorem automated_reports {moves : List AutomatedIngress.Event}
    (unreceived : ∀ status, .received status ∉ moves) (key : Key) :
    tasks (moves.map .automated) = [] ∧ received key (moves.map .automated) = [] := by
  rw [tasks, received, List.filterMap_map, List.filterMap_map, Event.runtime?_automated,
    Event.automated?_automated, List.filterMap_none, List.filterMap_some]
  refine ⟨rfl, ?_⟩
  have none : moves.filterMap AutomatedIngress.Event.received? = [] := by
    apply List.filterMap_eq_nil_iff.mpr
    intro event member
    cases event with
    | received status => exact absurd member (unreceived status)
    | _ => rfl
  rw [AutomatedIngress.statusesOf, none]
  rfl

/-- A step that receives nothing and in which no task takes a turn. -/
theorem quiet_tracked (before : Pipeline.Tracked hydratedStatuses key (tasks past)
      (received key past) self.runtime.flatten)
    (same : next.runtime = self.runtime) (silent : tasks out = []) (none : received key out = []) :
    Pipeline.Tracked hydratedStatuses key (tasks (past ++ out)) (received key (past ++ out))
      next.runtime.flatten := by
  rw [tasks_append, received_append, silent, none, List.append_nil, List.append_nil, same]
  exact before

/-- A step of the runtime that takes what was received in it. -/
theorem turn_tracked {runtime : Runtime} {turns : List AcornAlarms.Event} {move : RuntimeAction}
    (before : Pipeline.Tracked hydratedStatuses key (tasks past) (received key past)
      self.runtime.flatten)
    (fires : self.runtime.step config move = some (runtime, turns))
    (untouched : ∀ taken user confirmation now,
      move ≠ .turn (.input (.userUpdate key taken user confirmation) now))
    (redis : ∀ status now, move = .turn (.input (.automatedUpdate status) now) → FromRedis status)
    (silent : tasks out = turns)
    (takes : received key out = match move with
      | .turn action => action.updates key
      | .accept _ => []) :
    Pipeline.Tracked hydratedStatuses key (tasks (past ++ out)) (received key (past ++ out))
      runtime.flatten := by
  rw [tasks_append, received_append, silent, takes]
  rcases Runtime.flatten_step fires with ⟨action, rfl, steps⟩ | ⟨⟨task, rfl⟩, same, rfl⟩
  · exact before.turn steps (fun taken user confirmation now same => untouched _ _ _ _ (by rw [same]))
      fun status now same => redis status now (by rw [same])
  · rw [same, List.append_nil, List.append_nil]
    exact before

/-- As long as no operator touches a key its latest status is what the policy makes of the
updates of it that were received. -/
theorem tracked
    (run : (machine config).Run admits (start hydratedStatuses) actions events self)
    (untouched : Untouched key events) :
    Pipeline.Tracked hydratedStatuses key (tasks events) (received key events)
      self.runtime.flatten := by
  induction run with
  | refl => exact .start hydratedStatuses key
  | @snoc actions past state action next out prior admitted fires ih =>
      have before := ih fun owner taken user channel member =>
        untouched owner taken user channel (List.mem_append_left _ member)
      cases step_cases fires with
      | skip | decline | respond | respondSnapshot | abandonSnapshot | dropReceivers =>
          exact quiet_tracked before rfl rfl rfl
      | reject | trySend =>
          obtain ⟨silent, none⟩ := users_reports _ key
          exact quiet_tracked before rfl silent none
      | submit =>
          obtain ⟨silent, none⟩ := users_reports _ key
          exact quiet_tracked before rfl silent none
      | getSnapshot =>
          rw [Service.getSnapshot]
          simp only
          split <;> exact quiet_tracked before rfl rfl rfl
      | call forwards steps =>
          obtain ⟨silent, none⟩ := automated_reports (fun status member => by
            cases (AutomatedIngress.step_reports steps).2 ⟨status, member⟩) key
          exact quiet_tracked before rfl silent none
      | ingress internal steps =>
          obtain ⟨silent, none⟩ := automated_reports (fun status member => by
            cases (AutomatedIngress.step_reports steps).2 ⟨status, member⟩
            cases internal) key
          exact quiet_tracked before rfl silent none
      | @takeUser now message rest runtime turns alive queue steps =>
          obtain ⟨same, none⟩ := runtime_reports turns key
          have asked := queued_asked prior (queue ▸ List.mem_cons_self)
          refine turn_tracked before steps ?_ ?_ same ?_
          · intro taken user channel time move
            obtain ⟨owner, input⟩ := message
            cases move
            exact untouched owner taken user channel (by simp)
          · intro status time move
            obtain ⟨same, _⟩ := AcornAlarms.Action.input.inj (RuntimeAction.turn.inj move)
            exact absurd same (asked status)
          · refine none.trans ?_
            obtain ⟨owner, input⟩ := message
            cases input with
            | automatedUpdate status => exact absurd rfl (asked status)
            | _ => rfl
      | @takeAutomated now status rest runtime turns queue steps =>
          obtain ⟨same, none⟩ := runtime_reports turns key
          refine turn_tracked before steps (by simp) ?_ same ?_
          · intro other time move
            cases move
            exact queued_redis prior (queue ▸ List.mem_cons_self)
          · rw [← List.singleton_append, received_append, none, List.append_nil]
            by_cases here : Key.from status = key
            · simp [received, AutomatedIngress.statusesOf, Event.automated?,
                AutomatedIngress.Event.received?, Action.updates, here]
            · simp [received, AutomatedIngress.statusesOf, Event.automated?,
                AutomatedIngress.Event.received?, Action.updates, here]
      | @turn action runtime turns inner steps =>
          obtain ⟨same, none⟩ := runtime_reports turns key
          refine turn_tracked before steps ?_ ?_ same (none.trans ?_)
          · intro taken user channel time move
            cases move
            cases inner
          · intro status time move
            cases move
            cases inner
          · cases action with
            | input => cases inner
            | _ => rfl
      | accept steps =>
          obtain ⟨same, none⟩ := runtime_reports _ key
          exact turn_tracked before steps (by simp) (by simp) same none

/-- What a settled ingress left out of the updates of a key. -/
theorem CaughtUp.received (settled : self.CaughtUp key)
    (run : (machine config).Run admits (start hydratedStatuses) actions events self) :
    Coalesced (received key events) (forwarded key events) := by
  obtain ⟨_, moves⟩ := ingress_run run
  obtain ⟨coherent, accounts⟩ := AutomatedIngress.reached_accounts moves
  have normal : self.automated.overloadState.overloadMode = false := by
    refine Bool.eq_false_iff.mpr fun overloaded => ?_
    have permit := (coherent.overloaded overloaded).mp settled.drain
    rw [settled.permit] at permit
    cases permit
  have coalesced := accounts.coalesced key
  rw [coherent.retained_normal normal, List.append_nil] at coalesced
  have delivered := accounts.queue
  rw [settled.queue, List.append_nil] at delivered
  have returned := accounts.calls
  rw [settled.caller] at returned
  rw [Service.received, forwarded, AutomatedIngress.statusesOf, AutomatedIngress.statusesOf,
    ← delivered, returned, Caller.status?, Option.toList_none, List.append_nil]
  exact coalesced

/-- What the reader forwards was read from the stream and names the key. -/
theorem forwarded_redis
    (run : (machine config).Run admits (start hydratedStatuses) actions events self)
    {status : Status} (member : status ∈ forwarded key events) :
    FromRedis status ∧ Key.from status = key := by
  obtain ⟨inside, named⟩ := List.mem_filter.mp member
  obtain ⟨inner, submitted, same⟩ := List.mem_filterMap.mp inside
  obtain ⟨outer, reported, whole⟩ := List.mem_filterMap.mp submitted
  cases outer <;> cases whole
  cases inner <;> cases same
  exact ⟨submitted_redis run reported, of_decide_eq_true named⟩

/-- What a status says of its alarm. -/
def report (status : Status) : State × Severity := (status.state.value, status.severity.value)

/-- The confirmed status of a key. -/
def confirmed (self : Service) (key : Key) : Option Status :=
  (self.runtime.flatten.coordinator.confirmedState.get? key).map Prod.fst

/-- A settled key that no operator touched has the state and severity that its entries, handled
one after the other, leave it with. Snapshots show it as its last entry reported it, and not at
all where that says that all is well, unless a bypass of an EPICS key was hydrated, which stays. -/
theorem overload_unseen {last : Status}
    (run : (machine config).Run admits (start hydratedStatuses) actions events self)
    (untouched : Untouched key events) (settled : self.CaughtUp key)
    (ends : (forwarded key events).getLast? = some last)
    (decisive : Decisive (hydratedStatuses.get? key) last ∨
      (key.source = .epics ∧ isBypassed (hydratedStatuses.get? key) = true)) :
    (self.confirmed key).map report =
        (latestAfter (hydratedStatuses.get? key) (forwarded key events)).map report ∧
      if key.source = .epics ∧ isBypassed (hydratedStatuses.get? key) = true then
        self.confirmed key = hydratedStatuses.get? key
      else (self.runtime.flatten.coordinator.shown key).map report =
        if last.state.value = .ok then none else some (report last) := by
  have coalesced := settled.received run
  have latest : self.confirmed key =
      latestAfter (hydratedStatuses.get? key) (received key events) := by
    have tracked := tracked run untouched
    obtain ⟨lanes, refines, _, _⟩ := tracked.lanes
    rw [confirmed, refines.settled settled.outstanding, tracked.latest]
  have redis : ∀ status ∈ forwarded key events, FromRedis status ∧ Key.from status = key :=
    fun status member => forwarded_redis run member
  have inside : ∀ status ∈ received key events, FromRedis status ∧ Key.from status = key :=
    fun status member => redis status (coalesced.inside.subset member)
  have sources : ∀ {status}, Key.from status = key → status.source.value = key.source := by
    rintro status rfl
    rfl
  split
  · next bypass =>
      obtain ⟨epics, bypassed⟩ := bypass
      obtain ⟨held, hydrated, state⟩ := (Option.any_eq_true _ _).mp bypassed
      have state : held.state.value = .bypassed := of_decide_eq_true state
      have stays : ∀ updates : List Status,
          (∀ status ∈ updates, FromRedis status ∧ Key.from status = key) →
          latestAfter (some held) updates = some held := fun updates named =>
        latestAfter_bypassed state
          (fun status member => (sources (named status member).2).trans epics)
          fun status member => (named status member).1
      rw [latest, hydrated, stays _ inside, stays _ redis]
      exact ⟨rfl, rfl⟩
  · next unbypassed =>
      have decisive := decisive.resolve_right unbypassed
      have free : ∀ held, hydratedStatuses.get? key = some held →
          held.state.value = .bypassed → last.source.value ≠ .epics := by
        intro held hydrated bypassed epics
        have named := (redis last (List.mem_of_getLast? ends)).2
        rw [sources named] at epics
        exact unbypassed ⟨epics, by simp [isBypassed, hydrated, bypassed]⟩
      -- What ends in a decisive update ends where that update says.
      have ended : ∀ updates : List Status, updates.getLast? = some last →
          (∀ status ∈ updates, FromRedis status ∧ Key.from status = key) →
          (latestAfter (hydratedStatuses.get? key) updates).map report = some (report last) := by
        intro updates final named
        obtain ⟨front, rfl⟩ := List.getLast?_eq_some_iff.mp final
        exact latestAfter_decisive (fun status member => (named status member).1) decisive free
      have reported := ended _ (coalesced.last.trans ends) inside
      refine ⟨by rw [latest, reported, ended _ ends redis], ?_⟩
      rw [← latest] at reported
      obtain ⟨status, held, same⟩ := Option.map_eq_some_iff.mp reported
      obtain ⟨state, _⟩ := Prod.mk.inj same
      have never := (redis last (List.mem_of_getLast? ends)).1.state_ne
      rw [AlarmStateCoordinator.shown, ← confirmed, held]
      by_cases well : last.state.value = .ok
      · simp [well, state]
      · simp [well, state, never, same]

end Service

end

section

attribute [local instance] asciiPlatform

namespace Service

/-- Three entries of the pump at a queue of one: the second is retained and replaced by the
third, which is published behind the first. -/
def stormSettled : List Action :=
  [.entry (pumpEntry "minor") 0, .ingress .readMode, .ingress .trySend,
   .entry (pumpEntry "no_alarm") 0, .ingress .readMode, .ingress .trySend, .ingress .retain,
   .entry (pumpEntry "high") 0, .ingress .readMode,
   .ingress .notified, .ingress .popFront, .takeAutomated 0, .accept .coordinator,
   .ingress .send, .ingress .popFront, .takeAutomated 0] ++
  carry.tail ++ [.turn (.completion 0 true), .turn .flush] ++ deliver.tail ++
  carry ++ [.turn (.completion 0 true), .turn .flush] ++ deliver.tail

/-- The pump is shown as its last entry reported it. -/
theorem overload_unseen_storm : ∃ final events last,
    (machine narrow).Run Machine.Every (start .empty) stormSettled events final ∧
      (forwarded pump events).length = 3 ∧ (received pump events).length = 2 ∧
      (final.runtime.flatten.coordinator.shown pump).map report = some (report last) ∧
      report last = (.alarmed, .high) := by
  obtain ⟨final, events, run, check⟩ := run_of_check narrow stormSettled
    (fun final events => decide ((forwarded pump events).length = 3 ∧
      (received pump events).length = 2 ∧
      (forwarded pump events).getLast? = some (pumpReading "high") ∧
      final.automated.caller = .idle ∧ final.automated.drain = .waiting ∧
      final.automated.overloadNotify = false ∧ final.automated.queue = [] ∧
      final.runtime.flatten.outstanding pump = [] ∧ events.filterMap Event.users? = []))
    (by decide)
  obtain ⟨three, two, ends, caller, drain, permit, queue, outstanding, alone⟩ :=
    of_decide_eq_true check
  have untouched : Untouched pump events := by
    intro owner taken user channel member
    have inside := mem_users.mpr member
    rw [alone] at inside
    cases inside
  obtain ⟨_, shown⟩ := overload_unseen run untouched ⟨caller, drain, permit, queue, outstanding⟩
    ends (.inl ⟨by decide, fun held found => by simp at found⟩)
  rw [if_neg (by simp [isBypassed]), if_neg (by decide)] at shown
  exact ⟨final, events, _, run, three, two, shown, by decide⟩

end Service

end

end AcornAlarms
