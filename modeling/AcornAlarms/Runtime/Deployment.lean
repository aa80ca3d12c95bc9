import AcornAlarms.Adapters.Snapshot
import AcornAlarms.Library.Union
import AcornAlarms.Runtime.Service

/-!
# The service and its topic

The process can end at any moment. What it held is lost, the topic stays, and the next process
starts from the topic and from what the proxy reports then. A publish that reports an error may
have reached the topic all the same, and so may one that was under way when the process ended.
-/

namespace AcornAlarms

open Library

section

variable [Platform]

structure Deployment where
  /-- `none` while no process runs. -/
  service : Option Service
  /-- How many processes have started. -/
  incarnation : Nat
  topic : List StringMessage

namespace Deployment

inductive Action where
  /-- The service takes a step; a publish that fails in it has `reached` the topic or not. -/
  | serve (action : Service.Action) (reached : Bool)
  /-- The process ends, and the publishes under way at these places have reached the topic. -/
  | crash (reached : List Nat)
  /-- `main` up to its first task: the answer of the proxy, and the entries of the reduced topic
  in the order in which the merge takes them. -/
  | boot (snapshot : List Status) (entries : List (Key × Status))

inductive Event where
  | service (incarnation : Nat) (event : Service.Event)
  /-- A status was appended to the topic. -/
  | appended (key : Key) (status : Status)
  | crashed
  | booted
  /-- `main` returned an error: two sources know this key. -/
  | refused (key : Key)
deriving DecidableEq

/-- The status a turn of the publish engine has brought to the topic. -/
def reaches (reached : Bool) : AcornAlarms.Event → Option (Key × Status)
  | .published key status delivered =>
      if delivered || reached then some (key, status) else none
  | _ => none

/-- The statuses whose publishes are under way at some places. -/
def underway (service : Service) (places : List Nat) : List (Key × Status) :=
  places.filterMap fun place =>
    service.runtime.tasks.engine.inFlight[place]?.map fun attempt =>
      (attempt.detailsRef.key, attempt.detailsRef.status)

/-- The events of some statuses that reach the topic. -/
def appends (statuses : List (Key × Status)) : List Event :=
  statuses.map fun (key, status) => .appended key status

/-- The topic with some more statuses. -/
def append (json : StatusJson) (topic : List StringMessage) (statuses : List (Key × Status)) :
    List StringMessage :=
  topic ++ statuses.map fun (key, status) => alarmToMessage json key status

/-- A service that has taken a step. -/
def served (self : Deployment) (json : StatusJson) (reached : Bool) (next : Service)
    (out : List Service.Event) : Deployment × List Event :=
  let statuses := (out.filterMap Service.Event.runtime?).filterMap (reaches reached)
  ({ self with service := some next, topic := append json self.topic statuses },
    out.map (.service self.incarnation) ++ appends statuses)

def step (config : QueueCapacityConfig) (json : StatusJson) (self : Deployment) :
    Action → Option (Deployment × List Event)
  | .serve action reached =>
      match self.service with
      | none => none
      | some service =>
          (service.step config action).map fun (next, out) => self.served json reached next out
  | .crash reached =>
      match self.service with
      | none => none
      | some service =>
          let statuses := underway service reached
          some ({ self with service := none, topic := append json self.topic statuses },
            .crashed :: appends statuses)
  | .boot snapshot entries =>
      if self.service.isNone && entries.isPerm (reduceSnapshot json self.topic).entries then
        match entries.foldlM (FiniteMap.insertNew HydrationError.keyInMultipleSources)
            (loadAcnetHydration snapshot) with
        | .ok hydratedStatuses =>
            some ({ self with
              service := some (.start hydratedStatuses)
              incarnation := self.incarnation + 1 }, [.booted])
        | .error (.keyInMultipleSources key) => some (self, [.refused key])
      else none

/-- What each step took and what it left. -/
inductive Step (config : QueueCapacityConfig) (json : StatusJson) (self : Deployment) :
    Action → List Event → Deployment → Prop where
  | serve {action reached service next out} (up : self.service = some service)
      (fires : service.step config action = some (next, out)) :
      Step config json self (.serve action reached) (self.served json reached next out).2
        (self.served json reached next out).1
  | crash {reached service} (up : self.service = some service) :
      Step config json self (.crash reached) (.crashed :: appends (underway service reached))
        { self with service := none, topic := append json self.topic (underway service reached) }
  | boot {snapshot entries hydratedStatuses} (down : self.service = none)
      (order : entries.Perm (reduceSnapshot json self.topic).entries)
      (starts : entries.foldlM (FiniteMap.insertNew HydrationError.keyInMultipleSources)
        (loadAcnetHydration snapshot) = .ok hydratedStatuses) :
      Step config json self (.boot snapshot entries) [.booted]
        { self with
          service := some (.start hydratedStatuses)
          incarnation := self.incarnation + 1 }
  | refuse {snapshot entries key} (down : self.service = none)
      (order : entries.Perm (reduceSnapshot json self.topic).entries)
      (clash : entries.foldlM (FiniteMap.insertNew HydrationError.keyInMultipleSources)
        (loadAcnetHydration snapshot) = .error (.keyInMultipleSources key)) :
      Step config json self (.boot snapshot entries) [.refused key] self

def machine (config : QueueCapacityConfig) (json : StatusJson) :
    Machine Deployment Action Event :=
  ⟨step config json⟩

/-- No process has run yet, and the topic has some records. -/
def new (records : List StringMessage) : Deployment where
  service := none
  incarnation := 0
  topic := records

theorem step_cases {config : QueueCapacityConfig} {json : StatusJson} {self next : Deployment}
    {action : Action} {out : List Event}
    (fires : self.step config json action = some (next, out)) :
    Step config json self action out next := by
  unfold step at fires
  cases action with
  | serve action reached =>
      simp only at fires
      split at fires
      · cases fires
      · next service up =>
          obtain ⟨⟨after, events⟩, stepped, same⟩ := Option.map_eq_some_iff.mp fires
          obtain ⟨rfl, rfl⟩ := Prod.mk.inj same
          exact .serve up stepped
  | crash reached =>
      simp only at fires
      split at fires
      · cases fires
      · next service up =>
          obtain ⟨rfl, rfl⟩ := Prod.mk.inj (Option.some.inj fires)
          exact .crash up
  | boot snapshot entries =>
      simp only [Option.ite_none_right_eq_some, Bool.and_eq_true, Option.isNone_iff_eq_none,
        List.isPerm_iff] at fires
      obtain ⟨⟨down, order⟩, merges⟩ := fires
      split at merges
      · next hydratedStatuses starts =>
          obtain ⟨rfl, rfl⟩ := Prod.mk.inj (Option.some.inj merges)
          exact .boot down order starts
      · next key clash =>
          obtain ⟨rfl, rfl⟩ := Prod.mk.inj (Option.some.inj merges)
          exact .refuse down order clash

end Deployment

end

end AcornAlarms
