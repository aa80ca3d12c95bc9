import AcornAlarms.Adapters.Confirmations
import AcornAlarms.Adapters.Redis
import AcornAlarms.Engine.Ingress
import AcornAlarms.Library.Projection
import AcornAlarms.Runtime.Channels

/-!
# The service

What `main` joins: the Redis reader with the overload task behind it, the handlers of the
operators' requests, and the tasks of the runtime. A task of one side takes a step while the
others stay where they are; the coordinator's turn on an ingress message is a step of the
ingress and of the runtime together.
-/

namespace AcornAlarms

open Library

section

variable [Platform]

/-- The calls of `AlarmCommands` that change alarms. -/
inductive Request where
  | acknowledge (devices : List String) (user : String)
  | activate (devices : List String) (user : String)
  | bypass (devices : List String) (user : String)
  | snooze (devices : List String) (wake : Option Timestamp) (user : String)

/-- What a call submits for its devices. -/
def Request.update : Request → Except TonicStatus (List String × UserAction × String)
  | .acknowledge devices user => .ok (devices, .acknowledge, user)
  | .activate devices user => .ok (devices, .activate, user)
  | .bypass devices user => .ok (devices, .bypass none, user)
  | .snooze _ none _ => .error ⟨.invalidArgument, "wake timestamp is required"⟩
  | .snooze devices (some wake) user => .ok (devices, .bypass (some wake), user)

/-- A request whose handler has not returned: its keys, and the one-shot channels of the
updates it has offered. -/
structure Call where
  keys : List Key
  results : List Confirmation
deriving DecidableEq

structure Service where
  automated : AutomatedIngress
  users : UserIngress
  calls : FiniteMap Nat Call
  /-- The one-shot channels of the snapshot requests that wait. -/
  snapshotCalls : List Nat
  /-- The answers sent on one-shot channels. -/
  answers : FiniteMap Confirmation (Except UpdateError Unit)
  /-- The snapshots sent on one-shot channels. -/
  snapshots : FiniteMap Nat (List Status)
  runtime : Runtime

namespace Service

inductive Action where
  /-- The Redis reader takes an entry of the stream. -/
  | entry (payload : FiniteMap String String) (now : Int)
  /-- The reader's call of `send_automated_update` or the overload task goes on. -/
  | ingress (action : AutomatedIngress.Action)
  /-- A call arrives. -/
  | request (request : Request)
  /-- A request offers the update of its next device. -/
  | trySend (request : Nat)
  | getSnapshot
  /-- The coordinator takes a message from the user channel. -/
  | takeUser (now : Int)
  /-- The coordinator takes a message from the automated channel. -/
  | takeAutomated (now : Int)
  /-- A turn on another channel or a timer. -/
  | turn (action : AcornAlarms.Action)
  | accept (task : Task)
  /-- A coordinator that left its loop drops its receivers. -/
  | dropReceivers
  /-- A request's answers are complete and its handler returns. -/
  | respond (request : Nat)
  | respondSnapshot (sender : Nat)

inductive Event where
  | automated (event : AutomatedIngress.Event)
  | users (event : UserIngress.Event)
  | runtime (event : AcornAlarms.Event)
  /-- A request named these keys. -/
  | submitted (request : Nat) (keys : List Key) (action : UserAction) (user : String)
  /-- A call was declined before its devices were read. -/
  | declined (status : TonicStatus)
  /-- A request that waited was answered. -/
  | responded (request : Nat) (response : Except TonicStatus Unit)
  /-- A snapshot request was answered; it had this channel. -/
  | showed (sender : Nat) (response : Except TonicStatus (List Status))
deriving DecidableEq

namespace Event

/-- The runtime's part of the history. -/
def runtime? : Event → Option AcornAlarms.Event
  | .runtime event => some event
  | _ => none

/-- The user ingress's part of the history. -/
def users? : Event → Option UserIngress.Event
  | .users event => some event
  | _ => none

/-- The automated ingress's part of the history. -/
def automated? : Event → Option AutomatedIngress.Event
  | .automated event => some event
  | _ => none

@[simp] theorem runtime?_runtime : runtime? ∘ runtime = some := rfl
@[simp] theorem users?_users : users? ∘ users = some := rfl
@[simp] theorem automated?_automated : automated? ∘ automated = some := rfl
@[simp] theorem runtime?_users : runtime? ∘ users = fun _ => none := rfl
@[simp] theorem runtime?_automated : runtime? ∘ automated = fun _ => none := rfl
@[simp] theorem users?_runtime : users? ∘ runtime = fun _ => none := rfl
@[simp] theorem users?_automated : users? ∘ automated = fun _ => none := rfl
@[simp] theorem automated?_runtime : automated? ∘ runtime = fun _ => none := rfl
@[simp] theorem automated?_users : automated? ∘ users = fun _ => none := rfl

end Event

/-- `runtime::start` and no call yet. -/
def start (hydratedStatuses : FiniteMap Key Status) : Service where
  automated := .new
  users := .new
  calls := .empty
  snapshotCalls := []
  answers := .empty
  snapshots := .empty
  runtime := .start hydratedStatuses

/-- A step of the reader's call or of the overload task, and not of the reader or of the
coordinator. -/
def Internal : AutomatedIngress.Action → Bool
  | .call _ | .receive => false
  | _ => true

/-- A turn of a task that takes no ingress message. -/
def Inner : AcornAlarms.Action → Bool
  | .input _ _ => false
  | _ => true

/-- The answer an event sends on a one-shot channel. -/
def answer (answers : FiniteMap Confirmation (Except UpdateError Unit)) :
    AcornAlarms.Event → FiniteMap Confirmation (Except UpdateError Unit)
  | .resolved _ _ confirmation answer => answers.insert confirmation answer
  | .refused confirmation error => answers.insert confirmation (.error error)
  | _ => answers

/-- The snapshot an event sends on a one-shot channel. -/
def display (snapshots : FiniteMap Nat (List Status)) :
    AcornAlarms.Event → FiniteMap Nat (List Status)
  | .snapshot sender statuses => snapshots.insert sender statuses
  | _ => snapshots

/-- The runtime after a step, and what the step sent on one-shot channels. -/
def settle (self : Service) (runtime : Runtime) (out : List AcornAlarms.Event) : Service :=
  { self with
    runtime
    answers := out.foldl answer self.answers
    snapshots := out.foldl display self.snapshots }

def runtimeStep (self : Service) (config : QueueCapacityConfig) (action : RuntimeAction) :
    Option (Service × List Event) :=
  (self.runtime.step config action).map fun (runtime, out) =>
    (self.settle runtime out, out.map .runtime)

/-- What an event of the user ingress makes of the waiting requests. -/
def note (calls : FiniteMap Nat Call) : UserIngress.Event → FiniteMap Nat Call
  | .enqueued ⟨some request, .userUpdate _ _ _ confirmation⟩ =>
      match calls.get? request with
      | some call => calls.insert request { call with results := call.results ++ [confirmation] }
      | none => calls
  | .rejected request _ => calls.erase request
  | _ => calls

/-- `submit_and_confirm_user_update` up to its loop. -/
def request (self : Service) (request : Request) : Service × List Event :=
  match request.update with
  | .error status => (self, [.declined status])
  | .ok (devices, action, user) =>
      let (users, out) := self.users.submit devices action user
      match buildKeys devices with
      | .error _ => ({ self with users }, out.map .users)
      | .ok keys =>
          ({ self with users, calls := self.calls.insert self.users.requests ⟨keys, []⟩ },
            .submitted self.users.requests keys action user :: out.map .users)

/-- `get_snapshot` up to its wait. -/
def getSnapshot (self : Service) (capacity : Nat) : Service × List Event :=
  let sender := self.users.confirmations
  let users := { self.users with confirmations := sender + 1 }
  let message : UserMessage := ⟨none, .snapshotRequest sender⟩
  match users.trySend capacity message with
  | .error error => ({ self with users }, [.showed sender (.error (mapUserSendError error))])
  | .ok users =>
      ({ self with users, snapshotCalls := self.snapshotCalls ++ [sender] },
        [.users (.enqueued message)])

/-- The receipts of a call, once every one-shot channel was sent on or its sender dropped. -/
def receipts (self : Service) (call : Call) : Option (List Receipt) :=
  let results := call.results.map self.answers.get?
  if results.all Option.isSome || !self.users.receiverAlive then some results else none

/-- The end of `submit_and_confirm_user_update`. -/
def respond (self : Service) (request : Nat) : Option (Service × List Event) :=
  match self.users.submissions.get? request, self.calls.get? request with
  | none, some call =>
      (self.receipts call).map fun results =>
        ({ self with calls := self.calls.erase request },
          [.responded request (handleConfirmation (call.keys.zip results))])
  | _, _ => none

/-- The end of `get_snapshot`. -/
def respondSnapshot (self : Service) (sender : Nat) : Option (Service × List Event) :=
  if sender ∈ self.snapshotCalls then
    let waiting := { self with snapshotCalls := self.snapshotCalls.erase sender }
    match self.snapshots.get? sender with
    | some statuses => some (waiting, [.showed sender (.ok statuses)])
    | none =>
        if self.users.receiverAlive then none
        else some (waiting,
          [.showed sender (.error ⟨.internal, "The alarms state machine has shut down!"⟩)])
  else none

/-- The coordinator's turn on the oldest user message. -/
def takeUser (self : Service) (config : QueueCapacityConfig) (now : Int) :
    Option (Service × List Event) := do
  let message ← self.users.queue.head?
  let (users, taken) ← self.users.step config.user .receive
  let (next, out) ← { self with users }.runtimeStep config (.turn (.input message.input now))
  some (next, taken.map .users ++ out)

/-- The coordinator's turn on the oldest automated message. -/
def takeAutomated (self : Service) (config : QueueCapacityConfig) (now : Int) :
    Option (Service × List Event) := do
  let status ← self.automated.queue.head?
  let (automated, taken) ← self.automated.receive
  let (next, out) ←
    { self with automated }.runtimeStep config (.turn (.input (.automatedUpdate status) now))
  some (next, taken.map .automated ++ out)

def step (config : QueueCapacityConfig) (self : Service) :
    Action → Option (Service × List Event)
  | .entry payload now =>
      match runAlarmStream payload now with
      | none => if self.automated.caller = .idle then some (self, []) else none
      | some status =>
          (self.automated.step config.automated (.call status)).map fun (automated, out) =>
            ({ self with automated }, out.map .automated)
  | .ingress action =>
      if Internal action then
        (self.automated.step config.automated action).map fun (automated, out) =>
          ({ self with automated }, out.map .automated)
      else none
  | .request request => some (self.request request)
  | .trySend request =>
      (self.users.submitUpdate config.user request).map fun (users, out) =>
        ({ self with users, calls := out.foldl note self.calls }, out.map .users)
  | .getSnapshot => some (self.getSnapshot config.user)
  | .takeUser now => self.takeUser config now
  | .takeAutomated now => self.takeAutomated config now
  | .turn action => if Inner action then self.runtimeStep config (.turn action) else none
  | .accept task => self.runtimeStep config (.accept task)
  | .dropReceivers =>
      if self.runtime.tasks.coordinatorRunning then none
      else
        (self.users.step config.user .dropReceiver).map fun (users, out) =>
          ({ self with users }, out.map .users)
  | .respond request => self.respond request
  | .respondSnapshot sender => self.respondSnapshot sender

/-- What each step took and what it left. -/
inductive Step (config : QueueCapacityConfig) (self : Service) :
    Action → List Event → Service → Prop where
  | skip {payload now} (idle : self.automated.caller = .idle)
      (missing : runAlarmStream payload now = none) : Step config self (.entry payload now) [] self
  | call {payload now status automated out} (forwards : runAlarmStream payload now = some status)
      (steps : self.automated.step config.automated (.call status) = some (automated, out)) :
      Step config self (.entry payload now) (out.map .automated) { self with automated }
  | ingress {action automated out} (internal : Internal action = true)
      (steps : self.automated.step config.automated action = some (automated, out)) :
      Step config self (.ingress action) (out.map .automated) { self with automated }
  | decline {request status} (declines : request.update = .error status) :
      Step config self (.request request) [.declined status] self
  | reject {request devices action user status}
      (updates : request.update = .ok (devices, action, user))
      (wrong : buildKeys devices = .error status) :
      Step config self (.request request)
        ((self.users.submit devices action user).2.map .users)
        { self with users := (self.users.submit devices action user).1 }
  | submit {request devices action user keys}
      (updates : request.update = .ok (devices, action, user))
      (parsed : buildKeys devices = .ok keys) :
      Step config self (.request request)
        (.submitted self.users.requests keys action user ::
          (self.users.submit devices action user).2.map .users)
        { self with
          users := (self.users.submit devices action user).1
          calls := self.calls.insert self.users.requests ⟨keys, []⟩ }
  | trySend {request users out}
      (steps : self.users.submitUpdate config.user request = some (users, out)) :
      Step config self (.trySend request) (out.map .users)
        { self with users, calls := out.foldl note self.calls }
  | getSnapshot :
      Step config self .getSnapshot (self.getSnapshot config.user).2
        (self.getSnapshot config.user).1
  | takeUser {now message rest runtime out} (alive : self.users.receiverAlive = true)
      (queue : self.users.queue = message :: rest)
      (turns : self.runtime.step config (.turn (.input message.input now)) = some (runtime, out)) :
      Step config self (.takeUser now) (.users (.received message) :: out.map .runtime)
        ({ self with users := { self.users with queue := rest } }.settle runtime out)
  | takeAutomated {now status rest runtime out} (queue : self.automated.queue = status :: rest)
      (turns : self.runtime.step config (.turn (.input (.automatedUpdate status) now)) =
        some (runtime, out)) :
      Step config self (.takeAutomated now) (.automated (.received status) :: out.map .runtime)
        ({ self with automated := { self.automated with queue := rest } }.settle runtime out)
  | turn {action runtime out} (inner : Inner action = true)
      (turns : self.runtime.step config (.turn action) = some (runtime, out)) :
      Step config self (.turn action) (out.map .runtime) (self.settle runtime out)
  | accept {task runtime out}
      (accepts : self.runtime.step config (.accept task) = some (runtime, out)) :
      Step config self (.accept task) (out.map .runtime) (self.settle runtime out)
  | dropReceivers (stopped : self.runtime.tasks.coordinatorRunning = false) :
      Step config self .dropReceivers []
        { self with users := { self.users with receiverAlive := false, queue := [] } }
  | respond {request call results} (offered : self.users.submissions.get? request = none)
      (waits : self.calls.get? request = some call)
      (complete : self.receipts call = some results) :
      Step config self (.respond request)
        [.responded request (handleConfirmation (call.keys.zip results))]
        { self with calls := self.calls.erase request }
  | respondSnapshot {sender statuses} (waits : sender ∈ self.snapshotCalls)
      (answer : self.snapshots.get? sender = some statuses) :
      Step config self (.respondSnapshot sender) [.showed sender (.ok statuses)]
        { self with snapshotCalls := self.snapshotCalls.erase sender }
  | abandonSnapshot {sender} (waits : sender ∈ self.snapshotCalls)
      (answer : self.snapshots.get? sender = none) (stopped : self.users.receiverAlive = false) :
      Step config self (.respondSnapshot sender)
        [.showed sender (.error ⟨.internal, "The alarms state machine has shut down!"⟩)]
        { self with snapshotCalls := self.snapshotCalls.erase sender }

section

variable {config : QueueCapacityConfig} {self next : Service} {action : Action} {out : List Event}

theorem runtimeStep_eq_some_iff {taken : RuntimeAction} :
    self.runtimeStep config taken = some (next, out) ↔
      ∃ runtime events, self.runtime.step config taken = some (runtime, events) ∧
        next = self.settle runtime events ∧ out = events.map .runtime := by
  simp only [runtimeStep, Option.map_eq_some_iff, Prod.exists, Prod.mk.injEq]
  constructor
  · rintro ⟨runtime, events, steps, rfl, rfl⟩
    exact ⟨runtime, events, steps, rfl, rfl⟩
  · rintro ⟨runtime, events, steps, rfl, rfl⟩
    exact ⟨runtime, events, steps, rfl, rfl⟩

/-- A step is one of these. -/
theorem step_cases (fires : self.step config action = some (next, out)) :
    self.Step config action out next := by
  cases action with
  | entry payload now =>
      simp only [step] at fires
      split at fires
      · next missing =>
          split at fires
          · next idle =>
              cases fires
              exact .skip idle missing
          · cases fires
      · next status forwards =>
          obtain ⟨⟨automated, events⟩, steps, same⟩ := Option.map_eq_some_iff.mp fires
          cases same
          exact .call forwards steps
  | ingress taken =>
      simp only [step, Option.ite_none_right_eq_some, Option.map_eq_some_iff] at fires
      obtain ⟨internal, ⟨automated, events⟩, steps, same⟩ := fires
      cases same
      exact .ingress internal steps
  | request taken =>
      simp only [step, request, Option.some.injEq] at fires
      split at fires
      · next declines =>
          cases fires
          exact .decline declines
      · next devices action user updates =>
          split at fires
          · next wrong =>
              cases fires
              exact .reject updates wrong
          · next parsed =>
              cases fires
              exact .submit updates parsed
  | trySend number =>
      obtain ⟨⟨users, events⟩, steps, same⟩ := Option.map_eq_some_iff.mp fires
      cases same
      exact .trySend steps
  | getSnapshot =>
      have same := Option.some.inj fires
      have taken : self.Step config .getSnapshot (self.getSnapshot config.user).2
        (self.getSnapshot config.user).1 := .getSnapshot
      rw [same] at taken
      exact taken
  | takeUser now =>
      simp only [step, takeUser, Option.bind_eq_bind, Option.bind_eq_some_iff, Prod.exists,
        Option.some.injEq, Prod.mk.injEq] at fires
      obtain ⟨message, head, users, taken, receives, reached, events, runs, rfl, rfl⟩ := fires
      obtain ⟨runtime, events, turns, rfl, rfl⟩ := runtimeStep_eq_some_iff.mp runs
      cases queue : self.users.queue with
      | nil =>
          rw [queue] at head
          cases head
      | cons first rest =>
          rw [queue] at head
          obtain rfl := Option.some.inj head
          simp only [UserIngress.step, queue, Option.ite_none_right_eq_some, Option.some.injEq,
            Prod.mk.injEq] at receives
          obtain ⟨alive, rfl, rfl⟩ := receives
          exact .takeUser alive queue turns
  | takeAutomated now =>
      simp only [step, takeAutomated, Option.bind_eq_bind, Option.bind_eq_some_iff, Prod.exists,
        Option.some.injEq, Prod.mk.injEq] at fires
      obtain ⟨status, head, automated, taken, receives, reached, events, runs, rfl, rfl⟩ := fires
      obtain ⟨runtime, events, turns, rfl, rfl⟩ := runtimeStep_eq_some_iff.mp runs
      cases queue : self.automated.queue with
      | nil =>
          rw [queue] at head
          cases head
      | cons first rest =>
          rw [queue] at head
          obtain rfl := Option.some.inj head
          simp only [AutomatedIngress.receive, queue, Option.some.injEq, Prod.mk.injEq] at receives
          obtain ⟨rfl, rfl⟩ := receives
          exact .takeAutomated queue turns
  | turn taken =>
      simp only [step, Option.ite_none_right_eq_some] at fires
      obtain ⟨inner, runs⟩ := fires
      obtain ⟨runtime, events, turns, rfl, rfl⟩ := runtimeStep_eq_some_iff.mp runs
      exact .turn inner turns
  | accept task =>
      obtain ⟨runtime, events, accepts, rfl, rfl⟩ := runtimeStep_eq_some_iff.mp fires
      exact .accept accepts
  | dropReceivers =>
      simp only [step, UserIngress.step, Option.map_some, Option.ite_none_left_eq_some,
        Bool.not_eq_true, Option.some.injEq, Prod.mk.injEq] at fires
      obtain ⟨stopped, rfl, rfl⟩ := fires
      exact .dropReceivers stopped
  | respond number =>
      simp only [step, respond] at fires
      split at fires
      · next offered waits =>
          obtain ⟨results, complete, same⟩ := Option.map_eq_some_iff.mp fires
          cases same
          exact .respond offered waits complete
      · cases fires
  | respondSnapshot sender =>
      simp only [step, respondSnapshot, Option.ite_none_right_eq_some] at fires
      obtain ⟨waits, fires⟩ := fires
      split at fires
      · next statuses answer =>
          cases fires
          exact .respondSnapshot waits answer
      · next answer =>
          simp only [Option.ite_none_left_eq_some, Bool.not_eq_true, Option.some.injEq,
            Prod.mk.injEq] at fires
          obtain ⟨stopped, rfl, rfl⟩ := fires
          exact .abandonSnapshot waits answer stopped

end

def machine (config : QueueCapacityConfig) : Machine Service Action Event := ⟨step config⟩

/-- The runtime behind the ingress. -/
def runtimePart (config : QueueCapacityConfig) :
    Machine.Part (machine config) (Runtime.machine config) where
  state := Service.runtime
  turn := fun self action =>
    match action with
    | .takeUser now =>
        self.users.queue.head?.map fun message => .turn (.input message.input now)
    | .takeAutomated now =>
        self.automated.queue.head?.map fun status => .turn (.input (.automatedUpdate status) now)
    | .turn action => some (.turn action)
    | .accept task => some (.accept task)
    | _ => none
  report := Event.runtime?
  idle := by
    intro self action next out fires none
    cases step_cases fires with
    | skip | decline | dropReceivers | respond | respondSnapshot | abandonSnapshot =>
        exact ⟨rfl, rfl⟩
    | call | ingress | reject | submit | trySend => exact ⟨rfl, by simp [Event.runtime?]⟩
    | getSnapshot =>
        unfold getSnapshot
        simp only
        split <;> exact ⟨rfl, rfl⟩
    | takeUser alive queue turns | takeAutomated queue turns => simp [queue] at none
    | turn | accept => cases none
  moves := by
    intro self action next out taken fires takes
    cases step_cases fires with
    | takeUser alive queue turns | takeAutomated queue turns =>
        simp only [queue, List.head?_cons, Option.map_some, Option.some.injEq] at takes
        subst takes
        rw [List.filterMap_cons, List.filterMap_map, Event.runtime?_runtime, List.filterMap_some]
        exact turns
    | turn inner turns | accept turns =>
        obtain rfl := Option.some.inj takes
        rw [List.filterMap_map, Event.runtime?_runtime, List.filterMap_some]
        exact turns
    | _ => cases takes

/-- What the tasks of the runtime did. -/
def pipelinePart (config : QueueCapacityConfig) :
    Machine.Part (machine config) Pipeline.machine :=
  (runtimePart config).trans (Runtime.pipelinePart config)

/-- The user queue and the requests being submitted. -/
def usersPart (config : QueueCapacityConfig) :
    Machine.Part (machine config) (UserIngress.machine config.user) where
  state := Service.users
  turn := fun _ action =>
    match action with
    | .request request =>
        match request.update with
        | .error _ => none
        | .ok (devices, action, user) => some (.submit devices action user)
    | .trySend request => some (.trySend request)
    | .getSnapshot => some .requestSnapshot
    | .takeUser _ => some .receive
    | .dropReceivers => some .dropReceiver
    | _ => none
  report := Event.users?
  idle := by
    intro self action next out fires none
    cases step_cases fires with
    | skip | decline | respond | respondSnapshot | abandonSnapshot => exact ⟨rfl, rfl⟩
    | call | ingress | takeAutomated | turn | accept => exact ⟨rfl, by simp [Event.users?]⟩
    | reject updates | submit updates => simp [updates] at none
    | trySend | getSnapshot | takeUser | dropReceivers => cases none
  moves := by
    intro self action next out taken fires takes
    cases step_cases fires with
    | reject updates =>
        simp only [updates, Option.some.injEq] at takes
        subst takes
        rw [List.filterMap_map, Event.users?_users, List.filterMap_some]
        rfl
    | submit updates =>
        simp only [updates, Option.some.injEq] at takes
        subst takes
        rw [List.filterMap_cons, List.filterMap_map, Event.users?_users, List.filterMap_some]
        rfl
    | trySend steps =>
        obtain rfl := Option.some.inj takes
        rw [List.filterMap_map, Event.users?_users, List.filterMap_some]
        exact steps
    | getSnapshot =>
        obtain rfl := Option.some.inj takes
        simp only [UserIngress.machine, UserIngress.step, getSnapshot]
        split <;> simp [*, Event.users?]
    | takeUser alive queue turns =>
        obtain rfl := Option.some.inj takes
        simp [UserIngress.machine, UserIngress.step, alive, queue, settle, Event.users?]
    | dropReceivers stopped =>
        obtain rfl := Option.some.inj takes
        rfl
    | decline updates => simp [updates] at takes
    | _ => cases takes

/-- The Redis reader's call, the overload task and the automated queue. -/
def automatedPart (config : QueueCapacityConfig) :
    Machine.Part (machine config) (AutomatedIngress.machine config.automated) where
  state := Service.automated
  turn := fun _ action =>
    match action with
    | .entry payload now => (runAlarmStream payload now).map .call
    | .ingress action => some action
    | .takeAutomated _ => some .receive
    | _ => none
  report := Event.automated?
  idle := by
    intro self action next out fires none
    cases step_cases fires with
    | skip | decline | dropReceivers | respond | respondSnapshot | abandonSnapshot =>
        exact ⟨rfl, rfl⟩
    | reject | submit | trySend | takeUser | turn | accept =>
        exact ⟨rfl, by simp [Event.automated?]⟩
    | getSnapshot =>
        unfold getSnapshot
        simp only
        split <;> exact ⟨rfl, rfl⟩
    | call forwards steps => simp [forwards] at none
    | ingress | takeAutomated => cases none
  moves := by
    intro self action next out taken fires takes
    cases step_cases fires with
    | skip idle missing => simp [missing] at takes
    | call forwards steps =>
        simp only [forwards, Option.map_some, Option.some.injEq] at takes
        subst takes
        rw [List.filterMap_map, Event.automated?_automated, List.filterMap_some]
        exact steps
    | ingress internal steps =>
        obtain rfl := Option.some.inj takes
        rw [List.filterMap_map, Event.automated?_automated, List.filterMap_some]
        exact steps
    | takeAutomated queue turns =>
        obtain rfl := Option.some.inj takes
        simp [AutomatedIngress.machine, AutomatedIngress.step, AutomatedIngress.receive, queue,
          settle, Event.automated?]
    | _ => cases takes

/-- A computed run whose end passes a check. -/
theorem run_of_check (config : QueueCapacityConfig) (actions : List Action)
    (check : Service → List Event → Bool)
    (passes : (((machine config).exec (fun _ _ => true) (start .empty) actions).any
      fun (final, events) => check final events) = true) :
    ∃ final events, (machine config).Run Machine.Every (start .empty) actions events final ∧
      check final events = true :=
  Machine.run_of_check (fun _ _ _ _ => trivial) _ _ _ passes

end Service

end

end AcornAlarms
