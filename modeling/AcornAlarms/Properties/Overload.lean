import AcornAlarms.Engine.Ingress

/-!
# Overload coalescing

Outside the overload mode the drain task waits and nothing is retained, so a direct
send overtakes no retained status. In the mode a status goes to the drain task, which
has not sent the one it replaces.
-/

namespace AcornAlarms

open Library

section

variable [Platform]

namespace AutomatedIngress

variable {self next : AutomatedIngress} {capacity : Nat} {out : List Event}

/-- What the tasks can do. -/
inductive Step (self : AutomatedIngress) (capacity : Nat) :
    List Event → AutomatedIngress → Prop where
  | call {status} (idle : self.caller = .idle) :
      Step self capacity [.submitted status] { self with caller := .entering status }
  | merge {status} (entering : self.caller = .entering status)
      (overloaded : self.overloadState.overloadMode = true) :
      Step self capacity [.returned status] (self.keep status)
  | pass {status} (entering : self.caller = .entering status)
      (normal : self.overloadState.overloadMode = false) :
      Step self capacity [] { self with caller := .offering status }
  | deliver {status} (offering : self.caller = .offering status)
      (room : self.queue.length < capacity) :
      Step self capacity [.delivered status, .returned status]
        { self with queue := self.queue ++ [status], caller := .idle }
  | full {status} (offering : self.caller = .offering status)
      (noRoom : ¬ self.queue.length < capacity) :
      Step self capacity [] { self with caller := .retaining status }
  | retain {status} (retaining : self.caller = .retaining status) :
      Step self capacity [.returned status]
        { self.keep status with
          overloadState := { (self.keep status).overloadState with overloadMode := true }
          overloadNotify := true }
  | wake (waiting : self.drain = .waiting) (permit : self.overloadNotify = true) :
      Step self capacity [] { self with drain := .draining, overloadNotify := false }
  | take {key status rest} (draining : self.drain = .draining)
      (popped : self.overloadState.pending.popFront = some ((key, status), rest)) :
      Step self capacity []
        { self with
          overloadState := { self.overloadState with pending := rest }
          drain := .sending status }
  | finish (draining : self.drain = .draining) (drained : self.overloadState.pending = .empty) :
      Step self capacity []
        { self with
          overloadState := { self.overloadState with overloadMode := false }
          drain := .waiting }
  | drain {status} (sending : self.drain = .sending status)
      (room : self.queue.length < capacity) :
      Step self capacity [.delivered status]
        { self with queue := self.queue ++ [status], drain := .draining }
  | receive {status rest} (front : self.queue = status :: rest) :
      Step self capacity [.received status] { self with queue := rest }

/-- Every action is one of these steps. -/
theorem step_cases {action : Action}
    (fires : (machine capacity).step self action = some (next, out)) :
    self.Step capacity out next := by
  change self.step capacity action = some (next, out) at fires
  cases action with
  | call status =>
      simp only [step] at fires
      split at fires
      · rename_i idle
        cases fires
        exact .call idle
      · cases fires
  | readMode =>
      simp only [step, readMode] at fires
      split at fires
      · rename_i status entering
        split at fires
        · rename_i overloaded
          cases fires
          exact .merge entering overloaded
        · rename_i normal
          cases fires
          exact .pass entering (Bool.eq_false_iff.mpr normal)
      · cases fires
  | trySend =>
      simp only [step, trySend] at fires
      split at fires
      · rename_i status offering
        split at fires
        · rename_i room
          cases fires
          exact .deliver offering room
        · rename_i noRoom
          cases fires
          exact .full offering noRoom
      · cases fires
  | retain =>
      simp only [step, AutomatedIngress.retain] at fires
      split at fires
      · rename_i status retaining
        cases fires
        exact .retain retaining
      · cases fires
  | notified =>
      simp only [step, notified] at fires
      split at fires
      · rename_i ready
        cases fires
        exact .wake ready.1 ready.2
      · cases fires
  | popFront =>
      simp only [step, popFront] at fires
      split at fires
      · rename_i draining
        split at fires
        · rename_i popped
          cases fires
          exact .take draining popped
        · rename_i drained
          cases fires
          exact .finish draining ((RingMap.popFront_eq_none_iff _).mp drained)
      · cases fires
  | send =>
      simp only [step, send] at fires
      split at fires
      · rename_i status sending
        split at fires
        · rename_i room
          cases fires
          exact .drain sending room
        · cases fires
      · cases fires
  | receive =>
      simp only [step, AutomatedIngress.receive] at fires
      split at fires
      · rename_i status rest front
        cases fires
        exact .receive front
      · cases fires

/-- The overload mode is on exactly while the drain task works or is about to. -/
structure Coherent (ingress : AutomatedIngress) : Prop where
  keyed : ∀ {key status},
    ingress.overloadState.pending.get? key = some status → Key.from status = key
  normal : ingress.overloadState.overloadMode = false →
    ingress.drain = .waiting ∧ ingress.overloadNotify = false ∧
      ingress.overloadState.pending = .empty
  overloaded : ingress.overloadState.overloadMode = true →
    (ingress.drain = .waiting ↔ ingress.overloadNotify = true)
  direct : ingress.caller.Direct → ingress.overloadState.overloadMode = false

theorem new_coherent : AutomatedIngress.new.Coherent where
  keyed := nofun
  normal := fun _ => ⟨rfl, rfl, rfl⟩
  overloaded := nofun
  direct := fun direct => direct.elim

/-- A retained status is kept under its own key. -/
theorem Coherent.keyed_keep (coherent : self.Coherent) {status other : Status} {key : Key}
    (found : (self.keep status).overloadState.pending.get? key = some other) :
    Key.from other = key := by
  rw [keep, RingMap.get?_insert] at found
  split at found
  · rename_i same
    cases found
    exact same.symm
  · exact coherent.keyed found

/-- The drain task works in the overload mode only, and nobody has notified it again. -/
theorem Coherent.working (coherent : self.Coherent) (working : self.drain ≠ .waiting) :
    self.overloadState.overloadMode = true ∧ self.overloadNotify = false := by
  have overloaded : self.overloadState.overloadMode = true := by
    by_contra normal
    exact working (coherent.normal (Bool.eq_false_iff.mpr normal)).1
  refine ⟨overloaded, Bool.eq_false_iff.mpr fun permit => ?_⟩
  exact working ((coherent.overloaded overloaded).mpr permit)

/-- An ingress whose drain task works in the overload mode, with no notification left. -/
theorem Coherent.of_working
    (keyed : ∀ {key status}, self.overloadState.pending.get? key = some status →
      Key.from status = key)
    (overloaded : self.overloadState.overloadMode = true) (unset : self.overloadNotify = false)
    (works : self.drain ≠ .waiting)
    (direct : self.caller.Direct → self.overloadState.overloadMode = false) : self.Coherent where
  keyed := keyed
  normal := fun normal => by
    rw [overloaded] at normal
    cases normal
  overloaded := fun _ => ⟨fun waits => absurd waits works, fun set => by
    rw [unset] at set
    cases set⟩
  direct := direct

/-- A step keeps the mode and the tasks together. -/
theorem Step.coherent (step : self.Step capacity out next) (coherent : self.Coherent) :
    next.Coherent := by
  cases step with
  | call idle =>
      exact ⟨coherent.keyed, coherent.normal, coherent.overloaded, fun direct => direct.elim⟩
  | merge entering overloaded =>
      refine ⟨coherent.keyed_keep, fun normal => ?_, coherent.overloaded, fun direct => direct.elim⟩
      rw [keep, overloaded] at normal
      cases normal
  | pass entering normal =>
      exact ⟨coherent.keyed, coherent.normal, coherent.overloaded, fun _ => normal⟩
  | deliver offering room =>
      exact ⟨coherent.keyed, coherent.normal, coherent.overloaded, fun direct => direct.elim⟩
  | full offering noRoom =>
      refine ⟨coherent.keyed, coherent.normal, coherent.overloaded, fun _ => coherent.direct ?_⟩
      rw [offering]
      trivial
  | retain retaining =>
      have normal : self.overloadState.overloadMode = false := by
        refine coherent.direct ?_
        rw [retaining]
        trivial
      obtain ⟨waiting, _, _⟩ := coherent.normal normal
      exact ⟨coherent.keyed_keep, nofun,
        fun _ => ⟨fun _ => rfl, fun _ => waiting⟩, fun direct => direct.elim⟩
  | wake waiting permit =>
      have overloaded : self.overloadState.overloadMode = true := by
        by_contra normal
        have unset := (coherent.normal (Bool.eq_false_iff.mpr normal)).2.1
        rw [permit] at unset
        cases unset
      exact .of_working coherent.keyed overloaded rfl nofun coherent.direct
  | take draining popped =>
      obtain ⟨overloaded, unset⟩ := coherent.working (by simp [draining])
      refine .of_working ?_ overloaded unset nofun coherent.direct
      intro key status found
      rw [(RingMap.popFront_eq_some popped).2] at found
      split at found
      · cases found
      · exact coherent.keyed found
  | finish draining drained =>
      obtain ⟨_, unset⟩ := coherent.working (by simp [draining])
      exact ⟨coherent.keyed, fun _ => ⟨rfl, unset, drained⟩, nofun, fun _ => rfl⟩
  | drain sending room =>
      obtain ⟨overloaded, unset⟩ := coherent.working (by simp [sending])
      exact .of_working coherent.keyed overloaded unset nofun coherent.direct
  | receive front =>
      exact ⟨coherent.keyed, coherent.normal, coherent.overloaded, coherent.direct⟩

/-- The status an event submits. -/
def Event.submitted? : Event → Option Status
  | .submitted status => some status
  | _ => none

/-- The status whose call an event ends. -/
def Event.returned? : Event → Option Status
  | .returned status => some status
  | _ => none

/-- The status an event puts into the queue. -/
def Event.delivered? : Event → Option Status
  | .delivered status => some status
  | _ => none

/-- The status the coordinator receives in an event. -/
def Event.received? : Event → Option Status
  | .received status => some status
  | _ => none

/-- The statuses of a key among those the events of a kind carry. -/
def statusesOf (kind : Event → Option Status) (key : Key) (events : List Event) : List Status :=
  (events.filterMap kind).filter fun status => decide (Key.from status = key)

theorem statusesOf_append (kind : Event → Option Status) (key : Key) (first second : List Event) :
    statusesOf kind key (first ++ second) =
      statusesOf kind key first ++ statusesOf kind key second := by
  rw [statusesOf, List.filterMap_append, List.filter_append]
  rfl

/-- What is retained of a key, the oldest first: in the hands of the drain task, and pending. -/
def retained (self : AutomatedIngress) (key : Key) : List Status :=
  self.drain.status?.toList.filter (fun status => decide (Key.from status = key)) ++
    (self.overloadState.pending.get? key).toList

/-- Outside the overload mode nothing is retained. -/
theorem Coherent.retained_normal (coherent : self.Coherent)
    (normal : self.overloadState.overloadMode = false) (key : Key) : self.retained key = [] := by
  obtain ⟨waiting, _, drained⟩ := coherent.normal normal
  simp [retained, waiting, drained, DrainTask.status?]

/-- What went into the ingress and what came out. -/
structure Accounts (events : List Event) (ingress : AutomatedIngress) : Prop where
  calls : events.filterMap Event.submitted? =
    events.filterMap Event.returned? ++ ingress.caller.status?.toList
  queue : events.filterMap Event.delivered? = events.filterMap Event.received? ++ ingress.queue
  coalesced : ∀ key, Coalesced (statusesOf Event.delivered? key events ++ ingress.retained key)
    (statusesOf Event.returned? key events)

theorem new_accounts : Accounts [] AutomatedIngress.new where
  calls := rfl
  queue := rfl
  coalesced := fun _ => ⟨.refl _, rfl⟩

/-- A retained status of its key stands behind what the drain task has in hand. -/
theorem retained_keep (self : AutomatedIngress) (status : Status) (key : Key) :
    (self.keep status).retained key =
      if Key.from status = key then
        self.drain.status?.toList.filter (fun status => decide (Key.from status = key)) ++ [status]
      else self.retained key := by
  by_cases same : Key.from status = key
  · simp [retained, keep, RingMap.get?_insert, same]
  · have apart : ¬ key = Key.from status := fun equal => same equal.symm
    simp [retained, keep, RingMap.get?_insert, same, apart]

/-- What a step does with the statuses of a key. -/
inductive Moves (key : Key) (self : AutomatedIngress) (out : List Event) (next : AutomatedIngress) :
    Prop where
  | still (delivered : statusesOf Event.delivered? key out = [])
      (returned : statusesOf Event.returned? key out = [])
      (same : next.retained key = self.retained key)
  /-- A submitted status takes the place of the pending one. -/
  | keeps {status front left} (delivered : statusesOf Event.delivered? key out = [])
      (returned : statusesOf Event.returned? key out = [status])
      (before : self.retained key = front ++ left) (after : next.retained key = front ++ [status])
  /-- A submitted status is delivered while none is retained. -/
  | forwards {status} (delivered : statusesOf Event.delivered? key out = [status])
      (returned : statusesOf Event.returned? key out = [status])
      (before : self.retained key = []) (after : next.retained key = [])
  /-- The oldest retained status is delivered. -/
  | drains {status} (delivered : statusesOf Event.delivered? key out = [status])
      (returned : statusesOf Event.returned? key out = [])
      (before : self.retained key = status :: next.retained key)

/-- Retaining the status of a call. -/
theorem moves_of_keep {status : Status} {key : Key}
    (after : next.retained key = (self.keep status).retained key) :
    Moves key self [.returned status] next := by
  rw [retained_keep] at after
  by_cases same : Key.from status = key
  · rw [if_pos same] at after
    have before : self.retained key = self.drain.status?.toList.filter
        (fun status => decide (Key.from status = key)) ++
          (self.overloadState.pending.get? key).toList := rfl
    refine .keeps rfl ?_ before after
    simp [statusesOf, Event.returned?, same]
  · rw [if_neg same] at after
    refine .still rfl ?_ after
    simp [statusesOf, Event.returned?, same]

/-- A step delivers nothing out of order. -/
theorem Step.moves (step : self.Step capacity out next) (coherent : self.Coherent) (key : Key) :
    Moves key self out next := by
  cases step with
  | call idle => exact .still rfl rfl rfl
  | merge entering overloaded => exact moves_of_keep rfl
  | pass entering normal => exact .still rfl rfl rfl
  | @deliver status offering room =>
      have normal : self.overloadState.overloadMode = false := by
        refine coherent.direct ?_
        rw [offering]
        trivial
      have nothing := coherent.retained_normal normal key
      by_cases same : Key.from status = key
      · have delivered : statusesOf Event.delivered? key
            [.delivered status, .returned status] = [status] := by
          simp [statusesOf, List.filterMap_cons, Event.delivered?, same]
        have returned : statusesOf Event.returned? key
            [.delivered status, .returned status] = [status] := by
          simp [statusesOf, List.filterMap_cons, Event.returned?, same]
        exact .forwards delivered returned nothing nothing
      · refine .still ?_ ?_ rfl
        · simp [statusesOf, List.filterMap_cons, Event.delivered?, same]
        · simp [statusesOf, List.filterMap_cons, Event.returned?, same]
  | full offering noRoom => exact .still rfl rfl rfl
  | retain retaining => exact moves_of_keep rfl
  | wake waiting permit => exact .still rfl rfl (by simp [retained, waiting, DrainTask.status?])
  | @take other status rest draining popped =>
      refine .still rfl rfl ?_
      obtain ⟨found, left⟩ := RingMap.popFront_eq_some popped
      have named := coherent.keyed found
      by_cases same : Key.from status = key
      · have here : key = other := same.symm.trans named
        subst here
        simp [retained, draining, DrainTask.status?, left, found, same]
      · have apart : ¬ key = other := fun equal => same (named.trans equal.symm)
        simp [retained, draining, DrainTask.status?, left, same, apart]
  | finish draining drained => exact .still rfl rfl (by simp [retained, draining, DrainTask.status?])
  | @drain status sending room =>
      by_cases same : Key.from status = key
      · have delivered : statusesOf Event.delivered? key [.delivered status] = [status] := by
          simp [statusesOf, Event.delivered?, same]
        exact .drains delivered rfl (by simp [retained, sending, DrainTask.status?, same])
      · refine .still ?_ rfl ?_
        · simp [statusesOf, Event.delivered?, same]
        · simp [retained, sending, DrainTask.status?, same]
  | receive front => exact .still rfl rfl rfl

/-- Whatever a step delivers or retains supersedes only older statuses of its key. -/
theorem Moves.coalesced {key : Key} (moves : Moves key self out next) {kept all : List Status}
    (coalesced : Coalesced (kept ++ self.retained key) all) :
    Coalesced (kept ++ statusesOf Event.delivered? key out ++ next.retained key)
      (all ++ statusesOf Event.returned? key out) := by
  cases moves with
  | still delivered returned same =>
      rw [delivered, returned, same, List.append_nil, List.append_nil]
      exact coalesced
  | @keeps status front left delivered returned before after =>
      rw [before, ← List.append_assoc] at coalesced
      rw [delivered, returned, after, List.append_nil, ← List.append_assoc]
      exact coalesced.supersede status
  | @forwards status delivered returned before after =>
      rw [before] at coalesced
      rw [delivered, returned, after, List.append_nil]
      exact coalesced.supersede status
  | drains delivered returned before =>
      rw [before] at coalesced
      rw [delivered, returned, List.append_nil, List.append_assoc, List.singleton_append]
      exact coalesced

/-- A step keeps the accounts. -/
theorem Step.accounts {past : List Event} (step : self.Step capacity out next)
    (coherent : self.Coherent) (accounts : Accounts past self) :
    Accounts (past ++ out) next where
  calls := by
    have calls := accounts.calls
    rw [List.filterMap_append, List.filterMap_append, calls]
    cases step with
    | call idle =>
        simp [idle, Caller.status?, List.filterMap_cons, Event.submitted?, Event.returned?]
    | merge entering _ =>
        simp [entering, Caller.status?, List.filterMap_cons, Event.submitted?, Event.returned?, keep]
    | pass entering _ => simp [entering, Caller.status?]
    | deliver offering _ =>
        simp [offering, Caller.status?, List.filterMap_cons, Event.submitted?, Event.returned?]
    | full offering _ => simp [offering, Caller.status?]
    | retain retaining =>
        simp [retaining, Caller.status?, List.filterMap_cons, Event.submitted?, Event.returned?,
          keep]
    | wake _ _ => simp
    | take _ _ => simp
    | finish _ _ => simp
    | drain _ _ => simp [List.filterMap_cons, Event.submitted?, Event.returned?]
    | receive _ => simp [List.filterMap_cons, Event.submitted?, Event.returned?]
  queue := by
    have queue := accounts.queue
    rw [List.filterMap_append, List.filterMap_append, queue]
    cases step with
    | call _ => simp [List.filterMap_cons, Event.delivered?, Event.received?]
    | merge _ _ => simp [List.filterMap_cons, Event.delivered?, Event.received?, keep]
    | pass _ _ => simp
    | deliver _ _ => simp [List.filterMap_cons, Event.delivered?, Event.received?]
    | full _ _ => simp
    | retain _ => simp [List.filterMap_cons, Event.delivered?, Event.received?, keep]
    | wake _ _ => simp
    | take _ _ => simp
    | finish _ _ => simp
    | drain _ _ => simp [List.filterMap_cons, Event.delivered?, Event.received?]
    | receive front => simp [front, List.filterMap_cons, Event.delivered?, Event.received?]
  coalesced := by
    intro key
    rw [statusesOf_append, statusesOf_append]
    exact (step.moves coherent key).coalesced (accounts.coalesced key)

/-- Every reachable ingress is coherent and has its accounts. -/
theorem reached_accounts {admits : List Event → AutomatedIngress → Action → Prop}
    {actions : List Action} {events : List Event}
    (reached : (machine capacity).Run admits .new actions events self) :
    self.Coherent ∧ Accounts events self :=
  reached.history (fun past ingress => ingress.Coherent ∧ Accounts past ingress)
    ⟨new_coherent, new_accounts⟩ fun ⟨coherent, accounts⟩ _ fires =>
      ⟨(step_cases fires).coherent coherent, (step_cases fires).accounts coherent accounts⟩

/-- However the tasks interleave, the statuses of a key that reach the coordinator are a
subsequence of those submitted; a retained status is in the overload mode and the drain task
will find it; and once the drain task waits unnotified, nothing is retained and the queue has
got the last status of every key whose call returned. -/
theorem overload_coalesces {admits : List Event → AutomatedIngress → Action → Prop}
    {actions : List Action} {events : List Event}
    (reached : (machine capacity).Run admits .new actions events self) :
    (∀ key, (statusesOf Event.delivered? key events).Sublist
        (statusesOf Event.submitted? key events)) ∧
      events.filterMap Event.delivered? = events.filterMap Event.received? ++ self.queue ∧
      events.filterMap Event.submitted? =
        events.filterMap Event.returned? ++ self.caller.status?.toList ∧
      (self.overloadState.pending ≠ .empty → self.overloadState.overloadMode = true ∧
        (self.drain ≠ .waiting ∨ self.overloadNotify = true)) ∧
      (self.drain = .waiting → self.overloadNotify = false →
        self.overloadState.pending = .empty ∧ self.overloadState.overloadMode = false ∧
        ∀ key, (statusesOf Event.delivered? key events).getLast? =
          (statusesOf Event.returned? key events).getLast?) := by
  obtain ⟨coherent, accounts⟩ := reached_accounts reached
  refine ⟨fun key => ?_, accounts.queue, accounts.calls, fun retains => ?_, fun waiting unset => ?_⟩
  · have called : (statusesOf Event.returned? key events).Sublist
        (statusesOf Event.submitted? key events) := by
      refine List.Sublist.filter _ ?_
      rw [accounts.calls]
      exact List.sublist_append_left _ _
    exact ((List.sublist_append_left _ _).trans (accounts.coalesced key).inside).trans called
  · have overloaded : self.overloadState.overloadMode = true := by
      by_contra normal
      exact retains (coherent.normal (Bool.eq_false_iff.mpr normal)).2.2
    refine ⟨overloaded, ?_⟩
    by_cases waiting : self.drain = .waiting
    · exact .inr ((coherent.overloaded overloaded).mp waiting)
    · exact .inl waiting
  · have normal : self.overloadState.overloadMode = false := by
      refine Bool.eq_false_iff.mpr fun overloaded => ?_
      rw [(coherent.overloaded overloaded).mp waiting] at unset
      cases unset
    refine ⟨(coherent.normal normal).2.2, normal, fun key => ?_⟩
    have last := (accounts.coalesced key).last
    rwa [coherent.retained_normal normal, List.append_nil] at last

end AutomatedIngress

end

section

attribute [local instance] asciiPlatform

namespace AutomatedIngress

/-- Three reports of the pump at a queue of one: the second is retained and replaced by the
third. -/
def storm : List Action :=
  [.call (pump.report .alarmed .unknown), .readMode, .trySend,
    .call (pump.report .alarmed .low), .readMode, .trySend, .retain,
    .call (pump.report .alarmed .high), .readMode,
    .notified, .popFront, .receive, .send, .popFront]

/-- The storm is over and the last report is in the queue. -/
theorem overload_coalesces_storm :
    ∃ ingress events, (machine 1).Run Machine.Every .new storm events ingress ∧
      ingress.overloadState.pending = .empty ∧
      events.filterMap Event.received? = [pump.report .alarmed .unknown] ∧
      ingress.queue = [pump.report .alarmed .high] ∧
      (statusesOf Event.delivered? pump events).Sublist
        (statusesOf Event.submitted? pump events) := by
  obtain ⟨ingress, events, run, check⟩ := run_of_check 1 storm (fun ingress events =>
    ingress.drain = .waiting ∧ ingress.overloadNotify = false ∧
      events.filterMap Event.received? = [pump.report .alarmed .unknown] ∧
      ingress.queue = [pump.report .alarmed .high]) (by decide)
  obtain ⟨waiting, unset, received, queue⟩ := of_decide_eq_true check
  obtain ⟨inside, _, _, _, drained⟩ := overload_coalesces run
  exact ⟨ingress, events, run, (drained waiting unset).1, received, queue, inside pump⟩

end AutomatedIngress

end

end AcornAlarms
