import AcornAlarms.Properties.Metrics

/-!
# Pressure at the edge

The metrics of the ingress handles and the request handlers: overloads begin and end in turn, the
gauge of retained keys is what the overload task still has to send, every rejection for want of
room is counted, and so is the time of every request that was answered.
-/

namespace AcornAlarms

open Library

/-- Every overload that ended had its time taken. -/
theorem MetricsCall.count_overloadExits (calls : List MetricsCall) :
    count calls .overloadExits = (calls.filterMap overloaded?).length := by
  induction calls with
  | nil => rfl
  | cons call rest ih =>
      rw [count_cons, ih]
      cases call with
      | publishCompletion outcome => cases outcome <;> rfl
      | snooze record => cases record <;> rfl
      | _ => rfl

/-- A call of the request handlers. -/
def MetricsCall.request : MetricsCall → Bool
  | .userQueueFullRejection | .confirmationLatency _ => true
  | _ => false

section

variable [Platform]

/-- Whether a call of `send_automated_update` found the queue full. -/
def Caller.foundFull : Caller → Bool
  | .retaining _ => true
  | _ => false

namespace AutomatedIngress

variable {self next : AutomatedIngress} {calls more : List MetricsCall} {enteredAt : Option Nat}
  {capacity : Nat} {out : List Event}

/-- What the calls say of the overload: it was entered once more than left while it lasts, every
full queue led to an entry or is about to, and the gauge is the number of retained keys. -/
structure Gauged (calls : List MetricsCall) (enteredAt : Option Nat) (ingress : AutomatedIngress) :
    Prop where
  coherent : ingress.Coherent
  entries : MetricsCall.count calls .overloadEntries =
    MetricsCall.count calls .overloadExits + ingress.overloadState.overloadMode.toNat
  full : MetricsCall.count calls .automatedQueueFull =
    MetricsCall.count calls .overloadEntries + ingress.caller.foundFull.toNat
  began : enteredAt.isSome = ingress.overloadState.overloadMode
  retained : (latest MetricsCall.retained? calls).getD 0 =
    ingress.overloadState.pending.entries.length

theorem new_gauged : Gauged [] none .new where
  coherent := new_coherent
  entries := rfl
  full := rfl
  began := rfl
  retained := rfl

/-- Calls of other tasks and the moves of the queue leave the gauges. -/
theorem Gauged.keep (gauged : Gauged calls enteredAt self) (coherent : next.Coherent)
    (state : next.overloadState = self.overloadState)
    (caller : next.caller.foundFull = self.caller.foundFull)
    (aside : ∀ call ∈ more, call.ingress = false) : Gauged (calls ++ more) enteredAt next := by
  have silent : ∀ counter ∈ [Counter.overloadEntries, .overloadExits, .automatedQueueFull],
      MetricsCall.count more counter = 0 := by
    intro counter counted
    refine List.countP_eq_zero.mpr fun call member counts => ?_
    have apart := aside call member
    have same := of_decide_eq_true counts
    simp only [List.mem_cons, List.not_mem_nil, or_false] at counted
    obtain rfl | rfl | rfl := counted <;>
    · cases call with
      | publishCompletion outcome => cases outcome <;> cases same
      | snooze record => cases record <;> cases same
      | _ => first | cases same; done | cases apart
  have unreported : more.filterMap MetricsCall.retained? = [] := by
    refine List.filterMap_eq_nil_iff.mpr fun call member => ?_
    have apart := aside call member
    cases call <;> first | rfl | cases apart
  constructor
  · exact coherent
  · rw [MetricsCall.count_append, MetricsCall.count_append, silent _ (by simp),
      silent _ (by simp), state]
    exact gauged.entries
  · rw [MetricsCall.count_append, MetricsCall.count_append, silent _ (by simp),
      silent _ (by simp), caller]
    exact gauged.full
  · rw [state]
    exact gauged.began
  · rw [latest, List.filterMap_append, unreported, List.append_nil, state]
    exact gauged.retained

/-- A step that calls nothing. -/
theorem Gauged.still (gauged : Gauged calls enteredAt self) (coherent : next.Coherent)
    (state : next.overloadState = self.overloadState)
    (caller : next.caller.foundFull = self.caller.foundFull) :
    Gauged (calls ++ []) enteredAt next :=
  gauged.keep coherent state caller fun _ member => absurd member List.not_mem_nil

/-- A call reads the mode: it retains its status while the overload lasts. -/
theorem Gauged.readMode (gauged : Gauged calls enteredAt self) (after : next.Coherent)
    (fires : self.readMode = some (next, out)) (now : Nat) :
    Gauged (calls ++ self.calls capacity enteredAt now .readMode) enteredAt next := by
  simp only [AutomatedIngress.readMode] at fires
  split at fires
  · next status entering =>
      split at fires
      · next overloaded =>
          cases fires
          have called : self.calls capacity enteredAt now .readMode =
              [.retainedAutomatedKeys
                (self.keep status).overloadState.pending.entries.length] := by
            simp [AutomatedIngress.calls, entering, overloaded]
          rw [called]
          refine ⟨after, ?_, ?_, gauged.began, ?_⟩
          · simpa [MetricsCall.counter?, AutomatedIngress.keep] using gauged.entries
          · simpa [MetricsCall.counter?, entering, AutomatedIngress.keep, Caller.foundFull] using
              gauged.full
          · simp [latest, MetricsCall.retained?]
      · next normal =>
          cases fires
          have called : self.calls capacity enteredAt now .readMode = [] := by
            simp [AutomatedIngress.calls, entering, normal]
          rw [called]
          exact gauged.still after rfl (by rw [entering]; rfl)
  · cases fires

/-- A call offers its status to the queue. -/
theorem Gauged.trySend (gauged : Gauged calls enteredAt self) (after : next.Coherent)
    (fires : self.trySend capacity = some (next, out)) (now : Nat) :
    Gauged (calls ++ self.calls capacity enteredAt now .trySend) enteredAt next := by
  simp only [AutomatedIngress.trySend] at fires
  split at fires
  · next status offering =>
      split at fires
      · next room =>
          cases fires
          have called : self.calls capacity enteredAt now .trySend = [] := by
            simp [AutomatedIngress.calls, offering, room]
          rw [called]
          exact gauged.still after rfl (by rw [offering]; rfl)
      · next noRoom =>
          cases fires
          have called : self.calls capacity enteredAt now .trySend = [.automatedQueueFull] := by
            simp [AutomatedIngress.calls, offering, noRoom]
          have full := gauged.full
          rw [offering] at full
          rw [called]
          refine ⟨after, ?_, ?_, gauged.began, ?_⟩
          · simpa [MetricsCall.counter?] using gauged.entries
          · simpa [MetricsCall.counter?, Caller.foundFull] using full
          · simpa [latest, MetricsCall.retained?] using gauged.retained
  · cases fires

/-- A call that found the queue full begins the overload. -/
theorem Gauged.retain (gauged : Gauged calls enteredAt self) (after : next.Coherent)
    (fires : self.retain = some (next, out)) (now : Nat) :
    Gauged (calls ++ self.calls capacity enteredAt now .retain) (some now) next := by
  simp only [AutomatedIngress.retain] at fires
  split at fires
  · next status retaining =>
      cases fires
      have normal : self.overloadState.overloadMode = false := by
        refine gauged.coherent.direct ?_
        rw [retaining]
        trivial
      have entries := gauged.entries
      have full := gauged.full
      rw [normal] at entries
      rw [retaining] at full
      have called : self.calls capacity enteredAt now .retain =
          [.overloadEntry (self.keep status).overloadState.pending.entries.length] := by
        simp [AutomatedIngress.calls, retaining]
      rw [called]
      refine ⟨after, ?_, ?_, rfl, ?_⟩
      · simpa [MetricsCall.counter?] using entries
      · simpa [MetricsCall.counter?, AutomatedIngress.keep, Caller.foundFull] using full
      · simp [latest, MetricsCall.retained?]
  · cases fires

/-- The overload task takes out a retained status, or finds none and ends the overload. -/
theorem Gauged.popFront (gauged : Gauged calls enteredAt self) (after : next.Coherent)
    (fires : self.popFront = some (next, out)) (now : Nat) :
    Gauged (calls ++ self.calls capacity enteredAt now .popFront)
      (self.enteredAfter enteredAt now .popFront) next := by
  simp only [AutomatedIngress.popFront, Option.ite_none_right_eq_some] at fires
  obtain ⟨draining, fires⟩ := fires
  simp only [AutomatedIngress.calls, enteredAfter]
  split at fires
  · next key status rest popped =>
      cases fires
      rw [popped]
      refine ⟨after, ?_, ?_, gauged.began, ?_⟩
      · simpa [MetricsCall.counter?] using gauged.entries
      · simpa [MetricsCall.counter?] using gauged.full
      · simp [latest, MetricsCall.retained?]
  · next drained =>
      cases fires
      obtain ⟨overloaded, -⟩ := gauged.coherent.working (by simp [draining])
      have entries := gauged.entries
      have began := gauged.began
      rw [overloaded] at entries began
      obtain ⟨entered, rfl⟩ := Option.isSome_iff_exists.mp began
      have empty : self.overloadState.pending.entries = [] := by
        rw [(RingMap.popFront_eq_none_iff _).mp drained]
        rfl
      rw [drained, empty]
      refine ⟨after, ?_, ?_, rfl, ?_⟩
      · simpa [MetricsCall.counter?] using entries
      · simpa [MetricsCall.counter?] using gauged.full
      · simp [latest, MetricsCall.retained?, empty]

/-- A step of the ingress keeps the gauges. -/
theorem Gauged.step (gauged : Gauged calls enteredAt self) {action : Action}
    (fires : self.step capacity action = some (next, out)) (now : Nat) :
    Gauged (calls ++ self.calls capacity enteredAt now action)
      (self.enteredAfter enteredAt now action) next := by
  have after : next.Coherent := (step_cases fires).coherent gauged.coherent
  cases action with
  | readMode => exact gauged.readMode after fires now
  | trySend => exact gauged.trySend after fires now
  | retain => exact gauged.retain after fires now
  | popFront => exact gauged.popFront after fires now
  | call status =>
      simp only [AutomatedIngress.step] at fires
      split at fires
      · next idle =>
          cases fires
          exact gauged.still after rfl (by rw [idle]; rfl)
      · cases fires
  | notified =>
      simp only [AutomatedIngress.step, notified, Option.ite_none_right_eq_some, Option.some.injEq,
        Prod.mk.injEq] at fires
      obtain ⟨-, rfl, -⟩ := fires
      exact gauged.still after rfl rfl
  | send =>
      simp only [AutomatedIngress.step, send] at fires
      split at fires
      · simp only [Option.ite_none_right_eq_some, Option.some.injEq, Prod.mk.injEq] at fires
        obtain ⟨-, rfl, -⟩ := fires
        exact gauged.still after rfl rfl
      · cases fires
  | receive =>
      simp only [AutomatedIngress.step, AutomatedIngress.receive] at fires
      split at fires
      · cases fires
        exact gauged.still after rfl rfl
      · cases fires

end AutomatedIngress

/-- A request was refused because the user queue was full. -/
def Service.Event.refusedFull : Service.Event → Bool
  | .users (.rejected _ status) | .showed _ (.error status) => status = mapUserSendError .full
  | _ => false

/-- A request that waited for its confirmations returned. -/
def Service.Event.answered : Service.Event → Bool
  | .responded _ _ => true
  | _ => false

/-- A text that is no key is not taken for a full queue. -/
theorem buildKeys_ne_full {devices : List String} {status : TonicStatus}
    (wrong : buildKeys devices = .error status) : status ≠ mapUserSendError .full := by
  unfold buildKeys at wrong
  simp only at wrong
  split at wrong
  · cases wrong
  · cases wrong
    simp [mapUserSendError]

namespace UserIngress

variable {self next : UserIngress} {capacity request : Nat} {out : List Event}

/-- A message is refused for want of room. -/
def full (self : UserIngress) (capacity : Nat) : Bool :=
  self.receiverAlive && decide (capacity ≤ self.queue.length)

/-- Only a full queue is counted as a rejection. -/
theorem trySendCalls_eq (self : UserIngress) (message : UserMessage) :
    self.trySendCalls capacity message =
      if self.full capacity then [.userQueueFullRejection] else [] := by
  unfold trySendCalls trySend full
  cases self.receiverAlive with
  | false => rfl
  | true =>
      by_cases room : self.queue.length < capacity
      · simp [room, Nat.not_le.mpr room]
      · simp [room, Nat.not_lt.mp room]

/-- The request whose message finds the queue full is refused. -/
theorem submitUpdate_refused (steps : self.submitUpdate capacity request = some (next, out)) :
    (∃ key keys action user,
        self.submissions.get? request = some ⟨key :: keys, action, user⟩) ∧
      ((out.map Service.Event.users).countP Service.Event.refusedFull) =
        (self.full capacity).toNat ∧
      (out.map Service.Event.users).countP Service.Event.answered = 0 := by
  simp only [submitUpdate, trySend] at steps
  split at steps
  · next key keys action user found =>
      refine ⟨⟨key, keys, action, user, found⟩, ?_⟩
      unfold full
      cases alive : self.receiverAlive with
      | false =>
          simp only [alive] at steps
          cases steps
          exact ⟨rfl, rfl⟩
      | true =>
          simp only [alive] at steps
          by_cases room : self.queue.length < capacity
          · simp only [room, if_true, if_false, Bool.true_eq_false] at steps
            split at steps <;>
            · cases steps
              simp [Nat.not_le.mpr room, Service.Event.refusedFull, Service.Event.answered]
          · simp only [room, if_false, Bool.true_eq_false] at steps
            cases steps
            simp [Nat.not_lt.mp room, Service.Event.refusedFull, Service.Event.answered]
  · cases steps

end UserIngress

namespace Metered

variable {config : QueueCapacityConfig} {hydratedStatuses : FiniteMap Key Status}
  {self next : Metered} {past events out : List Event}

/-- A step that counts no request and reports none. -/
theorem requests_silent {calls : List MetricsCall} {reports : List Service.Event}
    (uncounted : ∀ call ∈ calls, call.request = false)
    (unreported : ∀ report ∈ reports, report.refusedFull = false ∧ report.answered = false) :
    MetricsCall.count calls .userQueueFullRejections = reports.countP Service.Event.refusedFull ∧
      (calls.filterMap MetricsCall.confirmed?).length =
        reports.countP Service.Event.answered := by
  have refused : reports.countP Service.Event.refusedFull = 0 :=
    List.countP_eq_zero.mpr fun report member => by simp [(unreported report member).1]
  have answered : reports.countP Service.Event.answered = 0 :=
    List.countP_eq_zero.mpr fun report member => by simp [(unreported report member).2]
  rw [refused, answered, List.length_eq_zero_iff, List.filterMap_eq_nil_iff]
  constructor
  · refine List.countP_eq_zero.mpr fun call member counted => ?_
    have other := uncounted call member
    have same := of_decide_eq_true counted
    cases call with
    | publishCompletion outcome => cases outcome <;> cases same
    | snooze record => cases record <;> cases same
    | _ => first | cases same; done | cases other
  · intro call member
    have other := uncounted call member
    cases call <;> first | rfl | cases other

/-- The requests refused for want of room and the requests answered are counted as they are. -/
theorem requests_counted {action : Service.Action} {service : Service}
    {reports : List Service.Event} (fires : self.service.step config action = some (service, reports))
    (now : Nat) :
    MetricsCall.count (self.calls config now action) .userQueueFullRejections =
        reports.countP Service.Event.refusedFull ∧
      ((self.calls config now action).filterMap MetricsCall.confirmed?).length =
        reports.countP Service.Event.answered := by
  have inner : ∀ call : MetricsCall, call.edge = false → call.request = false := by
    intro call inside
    cases call <;> first | rfl | cases inside
  have ingress : ∀ call : MetricsCall, call.ingress = true → call.request = false := by
    intro call inside
    cases call <;> first | rfl | cases inside
  have runtime : ∀ (out : List AcornAlarms.Event), ∀ report ∈ out.map Service.Event.runtime,
      report.refusedFull = false ∧ report.answered = false := by
    intro out report member
    obtain ⟨event, -, rfl⟩ := List.mem_map.mp member
    exact ⟨rfl, rfl⟩
  have automated : ∀ (out : List AutomatedIngress.Event),
      ∀ report ∈ out.map Service.Event.automated,
        report.refusedFull = false ∧ report.answered = false := by
    intro out report member
    obtain ⟨event, -, rfl⟩ := List.mem_map.mp member
    exact ⟨rfl, rfl⟩
  cases Service.step_cases fires with
  | skip | decline | dropReceivers | respond | respondSnapshot => exact ⟨rfl, rfl⟩
  | abandonSnapshot => exact ⟨rfl, rfl⟩
  | call => exact requests_silent (fun _ member => absurd member List.not_mem_nil) (automated _)
  | @ingress taken after out internal steps =>
      exact requests_silent
        (fun call member => ingress call (AutomatedIngress.calls_ingress _ now taken call member))
        (automated _)
  | accept => exact requests_silent (fun _ member => absurd member List.not_mem_nil) (runtime _)
  | takeUser | takeAutomated =>
      refine requests_silent (fun _ member => absurd member List.not_mem_nil) fun report member => ?_
      obtain rfl | later := List.mem_cons.mp member
      · exact ⟨rfl, rfl⟩
      · exact runtime _ report later
  | @turn taken after out inside turns =>
      obtain ⟨latency, called⟩ : ∃ latency, self.calls config now (.turn taken) =
          self.service.runtime.tasks.calls latency taken := self.calls_turn now taken
      rw [called]
      exact requests_silent
        (fun call member => inner call (Pipeline.calls_inner _ latency taken call member).1)
        (runtime _)
  | @reject request devices action user status updates wrong =>
      refine requests_silent (fun _ member => absurd member List.not_mem_nil) fun report member => ?_
      simp only [UserIngress.submit, wrong, List.map_cons, List.map_nil, List.mem_singleton]
        at member
      subst member
      exact ⟨decide_eq_false (buildKeys_ne_full wrong), rfl⟩
  | @submit request devices action user keys updates parsed =>
      refine requests_silent (fun _ member => absurd member List.not_mem_nil) fun report member => ?_
      obtain rfl | later := List.mem_cons.mp member
      · exact ⟨rfl, rfl⟩
      · simp only [UserIngress.submit, parsed] at later
        split at later
        · next absurd => cases absurd
        · obtain rfl := List.mem_singleton.mp later
          exact ⟨rfl, rfl⟩
        · cases later
  | @trySend request users out steps =>
      obtain ⟨⟨key, keys, action, user, found⟩, refused, silent⟩ :=
        UserIngress.submitUpdate_refused steps
      rw [refused, silent]
      simp only [calls, found, UserIngress.trySendCalls_eq]
      cases self.service.users.full config.user <;> exact ⟨rfl, rfl⟩
  | getSnapshot =>
      simp only [calls, UserIngress.trySendCalls_eq, UserIngress.full, Service.getSnapshot,
        UserIngress.trySend]
      by_cases closed : self.service.users.receiverAlive = false
      · simp [closed, Service.Event.refusedFull, Service.Event.answered, mapUserSendError]
      · by_cases room : self.service.users.queue.length < config.user
        · simp [closed, room, Nat.not_le.mpr room, Service.Event.refusedFull,
            Service.Event.answered]
        · simp [closed, room, Nat.not_lt.mp room, Service.Event.refusedFull,
            Service.Event.answered, MetricsCall.counter?, MetricsCall.confirmed?]

/-- What the calls of a run say of the requests and of the overloads. -/
structure Pressed (past : List Event) (metered : Metered) : Prop where
  gauged : metered.service.automated.Gauged (recorded past) metered.enteredAt
  refused : MetricsCall.count (recorded past) .userQueueFullRejections =
    (past.filterMap Event.service?).countP Service.Event.refusedFull
  answered : ((recorded past).filterMap MetricsCall.confirmed?).length =
    (past.filterMap Event.service?).countP Service.Event.answered

/-- A step of the service keeps the gauges of the ingress. -/
theorem act_gauged (gauged : self.service.automated.Gauged (recorded past) self.enteredAt)
    {action : Service.Action} {service : Service} {reports : List Service.Event}
    (fires : self.service.step config action = some (service, reports)) (now : Nat) :
    service.automated.Gauged (recorded past ++ self.calls config now action)
      (self.enteredAfter now action) := by
  have inner : ∀ call : MetricsCall, call.edge = false → call.ingress = false := by
    intro call inside
    cases call <;> first | rfl | cases inside
  have aside : ∀ message : UserMessage,
      ∀ call ∈ self.service.users.trySendCalls config.user message, call.ingress = false := by
    intro message call member
    rw [UserIngress.trySendCalls_rejection _ message call member]
    rfl
  cases Service.step_cases fires with
  | call forwards steps => exact gauged.step steps now
  | ingress internal steps => exact gauged.step steps now
  | @takeAutomated instant status rest runtime out queue turns =>
      have receives : self.service.automated.step config.automated .receive =
          some ({ self.service.automated with queue := rest }, [.received status]) := by
        simp [AutomatedIngress.step, AutomatedIngress.receive, queue]
      exact gauged.step receives now
  | @turn taken runtime out inside turns =>
      obtain ⟨latency, called⟩ : ∃ latency, self.calls config now (.turn taken) =
          self.service.runtime.tasks.calls latency taken := self.calls_turn now taken
      rw [called]
      exact gauged.keep gauged.coherent rfl rfl
        fun call member => inner call (Pipeline.calls_inner _ latency taken call member).1
  | @trySend request users out steps =>
      obtain ⟨⟨key, keys, action, user, found⟩, -, -⟩ := UserIngress.submitUpdate_refused steps
      have called : self.calls config now (.trySend request) =
          self.service.users.trySendCalls config.user ⟨some request,
            .userUpdate key action user self.service.users.confirmations⟩ := by
        simp [calls, found]
      rw [called]
      exact gauged.keep gauged.coherent rfl rfl (aside _)
  | getSnapshot =>
      have same : (self.service.getSnapshot config.user).1.automated = self.service.automated := by
        simp only [Service.getSnapshot]
        split <;> rfl
      rw [same]
      exact gauged.keep gauged.coherent rfl rfl (aside _)
  | respond offered waits complete =>
      refine gauged.keep gauged.coherent rfl rfl fun call member => ?_
      obtain rfl := List.mem_singleton.mp member
      rfl
  | _ => exact gauged.still gauged.coherent rfl rfl

/-- Every step keeps the account. -/
theorem Pressed.step {action : Action} (pressed : Pressed past self)
    (fires : self.step config action = some (next, out)) : Pressed (past ++ out) next := by
  cases step_cases fires with
  | @act action now service reports ready acts =>
      obtain ⟨refused, answered⟩ := requests_counted acts now
      have reported : (past ++ (reports.map Event.service ++
          (self.calls config now action).map Event.called)).filterMap Event.service? =
            past.filterMap Event.service? ++ reports := by
        rw [List.filterMap_append, List.filterMap_append, List.filterMap_map, List.filterMap_map,
          Event.service?_service, Event.service?_called, List.filterMap_some, List.filterMap_none,
          List.append_nil]
      constructor
      · rw [recorded_append, recorded_act]
        exact act_gauged pressed.gauged acts now
      · rw [recorded_append, recorded_act, reported, MetricsCall.count_append, List.countP_append,
          pressed.refused, refused]
      · rw [recorded_append, recorded_act, reported, List.filterMap_append, List.length_append,
          List.countP_append, pressed.answered, answered]
  | poll fresh =>
      have started : recorded [.called .publishAttemptStarted] = [.publishAttemptStarted] := rfl
      have silent : [Event.called .publishAttemptStarted].filterMap Event.service? = [] := rfl
      constructor
      · rw [recorded_append, started]
        refine pressed.gauged.keep pressed.gauged.coherent rfl rfl fun call member => ?_
        obtain rfl := List.mem_singleton.mp member
        rfl
      · rw [recorded_append, started, List.filterMap_append, silent, List.append_nil,
          MetricsCall.count_append, pressed.refused]
        rfl
      · rw [recorded_append, started, List.filterMap_append, List.filterMap_append, silent,
          List.append_nil, List.length_append, pressed.answered]
        rfl

/-- What the metrics say of the ingress and of the requests. -/
structure Relieved (metered : Metered) (events : List Event) : Prop where
  entries : metered.metrics.overloadEntries = metered.metrics.overloadExits +
    .ofNat metered.service.automated.overloadState.overloadMode.toNat
  full : metered.metrics.automatedQueueFull = metered.metrics.overloadEntries +
    .ofNat metered.service.automated.caller.foundFull.toNat
  durations : metered.metrics.overloadExits = metered.metrics.overloadDurationMs.samples
  began : metered.enteredAt.isSome = metered.service.automated.overloadState.overloadMode
  retained : metered.metrics.retainedAutomatedKeys =
    metered.service.automated.overloadState.pending.entries.length
  refused : metered.metrics.userQueueFullRejections =
    .ofNat ((events.filterMap Event.service?).countP Service.Event.refusedFull)
  answered : metered.metrics.confirmationLatencyMs.samples =
    .ofNat ((events.filterMap Event.service?).countP Service.Event.answered)

/-- In every run the metrics account for the overloads and for the requests. -/
theorem pressure_accounted {admits : List Event → Metered → Action → Prop} {actions : List Action}
    (run : (machine config).Run admits (start config hydratedStatuses) actions events self) :
    self.Relieved events := by
  have pressed := run.history Pressed ⟨AutomatedIngress.new_gauged, rfl, rfl⟩
    fun pressed _ fires => pressed.step fires
  have shows := Metrics.shows_calls config (recorded events)
  rw [← metrics_recorded run] at shows
  obtain ⟨coherent, entries, full, began, retained⟩ := pressed.gauged
  have entered : self.metrics.overloadEntries = _ := shows.counters .overloadEntries
  have left : self.metrics.overloadExits = _ := shows.counters .overloadExits
  have found : self.metrics.automatedQueueFull = _ := shows.counters .automatedQueueFull
  have rejected : self.metrics.userQueueFullRejections = _ :=
    shows.counters .userQueueFullRejections
  constructor
  case entries => rw [entered, left, entries, UInt64.ofNat_add]
  case full => rw [found, entered, full, UInt64.ofNat_add]
  case durations => rw [left, shows.overloads.samples, MetricsCall.count_overloadExits]
  case began => exact began
  case retained => rw [shows.retained, retained]
  case refused => rw [rejected, pressed.refused]
  case answered => rw [shows.confirmations.samples, pressed.answered]

end Metered

end

section

attribute [local instance] asciiPlatform

namespace Metered

/-- Two readings of the pump overload the ingress, and a second call finds the user queue full. -/
def overloadMetered : List Action :=
  during 0 [.entry (pumpEntry "minor") 0, .ingress .readMode, .ingress .trySend,
    .entry (pumpEntry "no_alarm") 0, .ingress .readMode, .ingress .trySend,
    .ingress .retain, .getSnapshot, .getSnapshot]

/-- The overload has not ended, one key is retained and one request was refused. -/
theorem pressure_accounted_overload : ∃ final events,
    (machine Service.narrow).Run Machine.Every (start Service.narrow .empty) overloadMetered events
        final ∧
      final.metrics.overloadEntries = final.metrics.overloadExits + 1 ∧
      final.metrics.automatedQueueFull = final.metrics.overloadEntries ∧
      final.metrics.retainedAutomatedKeys = 1 ∧
      final.metrics.userQueueFullRejections = 1 := by
  obtain ⟨final, events, run, check⟩ := run_of_check Service.narrow overloadMetered
    (fun final events => decide (final.service.automated.overloadState.overloadMode = true ∧
      final.service.automated.caller = .idle ∧
      final.service.automated.overloadState.pending.entries.length = 1 ∧
      (events.filterMap Event.service?).countP Service.Event.refusedFull = 1)) (by decide)
  obtain ⟨overloaded, idle, kept, once⟩ := of_decide_eq_true check
  obtain ⟨entries, full, -, -, retained, refused, -⟩ := pressure_accounted run
  rw [overloaded] at entries
  rw [idle] at full
  rw [once] at refused
  exact ⟨final, events, run, entries, by simpa [Caller.foundFull] using full,
    retained.trans kept, refused⟩

end Metered

end

end AcornAlarms
