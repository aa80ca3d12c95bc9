import AcornAlarms.Engine.Event
import AcornAlarms.Engine.Policy

/-!
# The alarm-state coordinator

The semantic authority for the alarm domain: it decides which inputs change the
latest desired status of a key, dispatches one job at a time for it and
reconciles the outcomes. A handler returns the new coordinator, the jobs it put
on the job queue and, when it returned an error, the cause.
-/

namespace AcornAlarms

open Library

variable [Platform]

def defaultHydratedId : Nat := 0
def initialPublishId : Nat := 1

def workflowHandlerStopped : String := "Workflow handler stopped running!"

/-- Alarm statuses by key, each with the id that produced it. -/
abbrev AlarmsCache := FiniteMap Key (Status × Nat)

/-- Domain inputs accepted by the coordinator. -/
inductive DomainInput where
  | snapshotRequest (sender : Nat)
  | automatedUpdate (status : Status)
  | userUpdate (key : Key) (action : UserAction) (user : String) (confirmation : Confirmation)
deriving DecidableEq

/-- Whether the workflow handler's end of the job queue is alive. -/
structure JobPort where
  workflowRunning : Bool

structure AlarmStateCoordinator where
  confirmedState : AlarmsCache
  speculativeState : AlarmsCache
  pendingConfirmations : FiniteMap Nat Confirmation
  idCounter : Nat
deriving DecidableEq

/-- What a handler leaves behind; `failure` is the `Err` it returned, if any. -/
structure Handled where
  coordinator : AlarmStateCoordinator
  jobs : List Job
  events : List Event
  failure : Option String

namespace Handled

/-- A handler that returned `Ok(())` and sent nothing. -/
def done (coordinator : AlarmStateCoordinator) (events : List Event) : Handled :=
  ⟨coordinator, [], events, none⟩

/-- Events of the same handler that came earlier. -/
def after (events : List Event) (handled : Handled) : Handled :=
  { handled with events := events ++ handled.events }

end Handled

/-- A user-authored status built from a requested action. -/
def buildUserStatus (key : Key) (action : UserAction) (user : String) (now : Int) : Status :=
  { Status.default with
    device := key.device
    source := .variant key.source
    state := .variant action.asState
    wake := action.getWake
    user
    time := some { seconds := now, nanos := 0 } }

/-- The automated `Unbypassed` status an elapsed timer stands for. -/
def buildWakeStatus (key : Key) (now : Int) : Status :=
  { Status.default with
    device := key.device
    source := .variant key.source
    state := .variant .unbypassed
    time := some { seconds := now, nanos := 0 } }

/-- The status a key without a confirmed entry is rolled back to. -/
def buildDefaultStatus (key : Key) : Status :=
  { Status.default with
    device := key.device
    source := .variant key.source }

namespace AlarmStateCoordinator

/-- Hydrated statuses seed the confirmed state with the reserved baseline id. -/
def new (hydratedStatuses : FiniteMap Key Status) : AlarmStateCoordinator where
  confirmedState := hydratedStatuses.mapValues fun status => (status, defaultHydratedId)
  speculativeState := .empty
  pendingConfirmations := .empty
  idCounter := initialPublishId

/-- The latest known status, preferring speculative state over confirmed state. -/
def getLatestStatus (self : AlarmStateCoordinator) (key : Key) : Option Status :=
  ((self.speculativeState.get? key).or (self.confirmedState.get? key)).map Prod.fst

def getNextId (self : AlarmStateCoordinator) : Nat × AlarmStateCoordinator :=
  (self.idCounter, { self with idCounter := self.idCounter + 1 })

/-- The confirmed statuses a snapshot shows. -/
def snapshotOf (self : AlarmStateCoordinator) : List Status :=
  self.confirmedState.entries.filterMap fun (_, status, _) =>
    if status.state.value = .ok ∨ status.state.value = .unbypassed then none else some status

def handleSnapshot (self : AlarmStateCoordinator) (sender : Nat) : Handled :=
  .done self [.snapshot sender self.snapshotOf]

/-- Dispatches the next job for `key` if speculative state is still pending for it. -/
def sendNextFor (self : AlarmStateCoordinator) (port : JobPort) (key : Key) : Handled :=
  match self.speculativeState.get? key with
  | some (status, id) =>
      let job : Job :=
        { id, key, status, userInitiated := self.pendingConfirmations.contains id }
      if port.workflowRunning then ⟨self, [job], [.dispatched job], none⟩
      else ⟨self, [], [], some workflowHandlerStopped⟩
  | none => .done self []

/-- The end of both update handlers: record the status and dispatch it unless a
job is already in flight for the key. -/
def speculate (self : AlarmStateCoordinator) (port : JobPort) (key : Key) (status : Status)
    (id : Nat) : Handled :=
  let inFlight := self.speculativeState.get? key
  let self := { self with speculativeState := self.speculativeState.insert key (status, id) }
  if inFlight.isNone then self.sendNextFor port key else .done self []

/-- Applies an automated status update. -/
def handleAutomatedUpdate (self : AlarmStateCoordinator) (port : JobPort) (status : Status) :
    Handled :=
  let key := Key.from status
  let prev := self.getLatestStatus key
  if shouldPublish prev status then
    let (id, self) := self.getNextId
    (self.speculate port key status id).after [.recorded id key status]
  else .done self []

/-- Applies a user-requested state transition. -/
def handleUserUpdate (self : AlarmStateCoordinator) (port : JobPort) (key : Key)
    (action : UserAction) (user : String) (confirmation : Confirmation) (now : Int) : Handled :=
  let latestStatus := self.getLatestStatus key
  let latestState := (latestStatus.map fun status => status.state.value).getD .unknown
  let latestWake := latestStatus.bind fun status => status.wake
  if userActionAllowed latestState latestWake action then
    let updatedStatus := buildUserStatus key action user now
    let (id, self) := self.getNextId
    let self :=
      { self with pendingConfirmations := self.pendingConfirmations.insert id confirmation }
    (self.speculate port key updatedStatus id).after [.admitted id key updatedStatus confirmation]
  else
    .done self [.refused confirmation (.stateNotAllowed
      { key, current := latestState, requested := action.asState })]

/-- Synthesizes an automated `Unbypassed` update for `key`. -/
def dispatchAutomatedWake (self : AlarmStateCoordinator) (port : JobPort) (key : Key) (now : Int) :
    Handled :=
  (self.handleAutomatedUpdate port (buildWakeStatus key now)).after [.woke key]

/-- Remove the confirmation retained under the id of a job and answer it. -/
def resolve (self : AlarmStateCoordinator) (job : Job) (answer : Except UpdateError Unit) :
    AlarmStateCoordinator × List Event :=
  match self.pendingConfirmations.get? job.id with
  | some confirmation =>
      ({ self with pendingConfirmations := self.pendingConfirmations.erase job.id },
        [.resolved job.id job.key confirmation answer])
  | none => (self, [])

/-- Rolls speculative state back to the last confirmed state for `key`. -/
def convergeToLastConfirmed (self : AlarmStateCoordinator) (key : Key) : AlarmStateCoordinator :=
  let confirmedEntry :=
    (self.confirmedState.get? key).getD (buildDefaultStatus key, defaultHydratedId)
  { self with speculativeState := self.speculativeState.insert key confirmedEntry }

/-- Reconciles a failed job outcome. -/
def reconcileFailure (self : AlarmStateCoordinator) (port : JobPort) (job : Job) : Handled :=
  let key := job.key
  let (self, resolved) := self.resolve job (.error (.internal key))
  match self.speculativeState.get? key with
  | none => ⟨self, [], resolved, some "Lost state for job"⟩
  | some (_, specId) =>
      let self := if specId = job.id ∧ job.userInitiated then self.convergeToLastConfirmed key
        else self
      (self.sendNextFor port key).after (resolved ++ [.failed job])

/-- Reconciles a successful job outcome. -/
def reconcileSuccess (self : AlarmStateCoordinator) (port : JobPort) (success : Job) : Handled :=
  let (self, resolved) := self.resolve success (.ok ())
  let sent : Handled :=
    match self.speculativeState.get? success.key with
    | some (_, specId) =>
        if specId = success.id then
          .done { self with speculativeState := self.speculativeState.erase success.key } []
        else self.sendNextFor port success.key
    | none => .done self []
  match sent.failure with
  | some cause => { sent with events := resolved ++ sent.events, failure := some cause }
  | none =>
      let self := sent.coordinator
      ⟨{ self with
          confirmedState := self.confirmedState.insert success.key (success.status, success.id) },
        sent.jobs, resolved ++ sent.events ++ [.committed success], none⟩

def reconcileJobOutcome (self : AlarmStateCoordinator) (port : JobPort) (now : Int) :
    JobOutcome → Handled
  | .committed job => self.reconcileSuccess port job
  | .failed job => self.reconcileFailure port job
  | .wake key => self.dispatchAutomatedWake port key now

def handleMessage (self : AlarmStateCoordinator) (port : JobPort) (now : Int) :
    DomainInput → Handled
  | .snapshotRequest sender => self.handleSnapshot sender
  | .automatedUpdate status => self.handleAutomatedUpdate port status
  | .userUpdate key action user confirmation =>
      self.handleUserUpdate port key action user confirmation now

/-- Fails every pending user confirmation, looking its key up in the speculative state. -/
def failAllConfirmations (self : AlarmStateCoordinator) : AlarmStateCoordinator × List Event :=
  ({ self with pendingConfirmations := .empty },
    self.pendingConfirmations.entries.filterMap fun (id, confirmation) =>
      (self.speculativeState.entries.findSome? fun (key, _, mappedId) =>
        if mappedId = id then some key else none).map fun key =>
          .resolved id key confirmation (.error (.internal key)))

end AlarmStateCoordinator

end AcornAlarms
