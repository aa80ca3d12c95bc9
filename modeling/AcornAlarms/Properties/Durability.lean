import AcornAlarms.Properties.Sessions
import AcornAlarms.Properties.Startup
import AcornAlarms.Runtime.Deployment

/-!
# What was answered survives a crash

A bypass whose request was answered `Ok` is on the topic. However often the process ends and
starts again, the topic ends with it for its device, and every process that runs has it
confirmed, until something newer reaches the topic for the device.
-/

namespace AcornAlarms

open Library

/-- What follows an element of a list still follows it in a longer one. -/
theorem sublist_around {Value : Type} {value : Value} {front back whole : List Value}
    (within : (front ++ value :: back).Sublist whole) :
    ∃ older newer, whole = older ++ value :: newer ∧ back.Sublist newer := by
  obtain ⟨first, rest, rfl, -, later⟩ := List.append_sublist_iff.mp within
  obtain ⟨near, far, rfl, member, more⟩ := List.cons_sublist_iff.mp later
  obtain ⟨left, right, rfl⟩ := List.append_of_mem member
  exact ⟨first ++ left, right ++ far, by simp, more.trans (List.sublist_append_right _ _)⟩

section

variable [Platform] {json : StatusJson} {snapshot : List Status} {records : List StringMessage}
  {hydratedStatuses : FiniteMap Key Status}

/-- The keys of an accepted request were parsed. -/
theorem buildKeys_parsed {devices : List String} {keys : List Key}
    (parsed : buildKeys devices = .ok keys) {key : Key} (member : key ∈ keys) :
    ∃ text, Key.tryFrom text = .ok key := by
  rw [buildKeys] at parsed
  simp only at parsed
  split at parsed
  · obtain rfl := Except.ok.inj parsed
    revert member
    -- Each round of the loop adds a key that was parsed, or none.
    refine List.foldlRecOn (motive := fun gathered : List Key × List String =>
      key ∈ gathered.1 → ∃ text, Key.tryFrom text = .ok key) devices _ ?_ ?_
    · intro member
      cases member
    rintro ⟨found, errs⟩ before text _ member
    cases named : Key.tryFrom text with
    | error wrong =>
        simp only [named] at member
        exact before member
    | ok other =>
        simp only [named] at member
        obtain early | late := List.mem_append.mp member
        · exact before early
        · obtain rfl := List.mem_singleton.mp late
          exact ⟨text, named⟩
  · cases parsed

/-- What a map has for a key is of the key's source. -/
def Sourced (hydratedStatuses : FiniteMap Key Status) : Prop :=
  ∀ {key status}, hydratedStatuses.get? key = some status → status.source.value = key.source

theorem Hydrates.sourced (hydrates : Hydrates json snapshot records hydratedStatuses) :
    Sourced hydratedStatuses := by
  intro key status found
  rw [hydrates.get?, hydration, ← get?_loadAcnetHydration] at found
  obtain reduced | ⟨_, reported⟩ := Option.or_eq_some_iff.mp found
  · have hydratable := reduceSnapshot_hydratable records reduced
    exact hydratable.source.trans hydratable.epics.symm
  · exact congrArg Key.source (from_of_loadAcnetHydration reported)

/-- An attempt that returns is the one of its lane. -/
theorem Lanes.Step.publishes_underway {lanes next : Lanes} {out : List Event} {key : Key}
    {status : Status} {delivered : Bool} (step : lanes.Step out next)
    (member : .published key status delivered ∈ out) :
    ∃ job, lanes.underway key = some job ∧ status = job.status := by
  obtain ⟨moved, reached, move, -, -⟩ := step.travels member trivial
  generalize arrived : lanes.stage moved = stage at move
  cases move with
  | retry again | deliver spent =>
      simp only [List.mem_singleton, Event.published.injEq] at member
      obtain ⟨rfl, rfl, -⟩ := member
      refine ⟨_, ?_, rfl⟩
      rw [Lanes.underway, arrived]
      rfl
  | receive | advance | reject | attempt => exact absurd member List.not_mem_nil
  | answer => simp at member

/-- A status that was hydrated or asked for is of the source of its key. -/
theorem Known.source {actions : List Action} {events : List Event} {pipeline : Pipeline}
    {admits : List Event → Pipeline → Action → Prop} {id : Nat} {key : Key} {status : Status}
    (known : Known hydratedStatuses events id key status)
    (run : Pipeline.machine.Run admits (.start hydratedStatuses) actions events pipeline)
    (sourced : Sourced hydratedStatuses) : status.source.value = key.source := by
  have stands : hydratedStatuses.get? key = some status ∨ status.source.value = key.source := by
    apply known.asked run
    · intro past state action intake _ _
      exact congrArg Key.source intake.from_status
    · rfl
  obtain hydrated | asked := stands
  · exact sourced hydrated
  · exact asked

namespace Pipeline

variable {admits : List Event → Pipeline → Action → Prop} {actions : List Action}
  {events : List Event} {self : Pipeline}

theorem attempt_source
    (run : machine.Run admits (start hydratedStatuses) actions events self)
    (sourced : Sourced hydratedStatuses) {attempt : PublishAttempt}
    (member : attempt ∈ self.engine.inFlight) :
    attempt.detailsRef.status.source.value = attempt.detailsRef.key.source := by
  obtain ⟨lanes, refines, ledger⟩ := ledger run
  obtain ⟨front, back, whole⟩ := List.append_of_mem member
  obtain ⟨job, number, arrived, rfl, -, -⟩ := refines.attempt_underway whole
  have under : lanes.underway job.key = some job := by
    rw [Lanes.underway, arrived]
    rfl
  rw [Refines.detailsRef_publishRequest]
  exact (ledger.job under).2.source run sourced

theorem published_source
    (run : machine.Run admits (start hydratedStatuses) actions events self)
    (sourced : Sourced hydratedStatuses) {key : Key} {status : Status} {delivered : Bool}
    (member : .published key status delivered ∈ events) : status.source.value = key.source := by
  obtain ⟨front, back, split⟩ := List.append_of_mem member
  obtain ⟨state, next, action, past, early, late, rest, occurs⟩ := run.occurs split
  obtain ⟨_, prior⟩ := occurs.prior
  obtain ⟨lanes, refines, ledger⟩ := ledger prior
  obtain ⟨_, step, -⟩ := refines.step occurs.fires
  have inside :
      .published key status delivered ∈ early ++ .published key status delivered :: late := by simp
  obtain ⟨job, under, rfl⟩ := step.publishes_underway inside
  exact (ledger.job under).2.source prior sourced

/-- The confirmed status of a key is the last one published for it. -/
def Holds (self : Pipeline) (key : Key) (status : Status) : Prop :=
  ∃ lanes, Refines self lanes ∧ (lanes.stage key).unwritten = [] ∧
    (lanes.desk.confirmedState.get? key).map Prod.fst = some status

theorem Holds.confirmed {key : Key} {status : Status} (holds : self.Holds key status) :
    (self.coordinator.confirmedState.get? key).map Prod.fst = some status := by
  obtain ⟨lanes, refines, -, confirmed⟩ := holds
  rw [refines.desk]
  exact confirmed

/-- It stays so while nothing is published for the key. -/
theorem Holds.step {key : Key} {status : Status} (holds : self.Holds key status) {action : Action}
    {next : Pipeline} {out : List Event} (fires : self.step action = some (next, out))
    (nothing : deliveredOf key out = []) : next.Holds key status := by
  obtain ⟨lanes, refines, unwritten, confirmed⟩ := holds
  obtain ⟨after, step, kept⟩ := refines.step fires
  obtain ⟨log, store⟩ := step.balances key
  rw [unwritten, nothing, List.append_nil] at log
  obtain ⟨written, left⟩ := List.append_eq_nil_iff.mp log.symm
  rw [written, confirmed] at store
  exact ⟨after, kept, left, store⟩

/-- A job with an id that was free at a point of a run and that was committed since was published
since, and if nothing was published for its key after it then its status is the confirmed one. -/
theorem brings {first later : List Action} {past more : List Event} {state final : Pipeline}
    (prior : machine.Run admits (start hydratedStatuses) first past state)
    (rest : machine.Run Machine.Every state later more final) {job : Job}
    (committed : .committed job ∈ past ++ more)
    (unissued : ∀ {lanes}, Refines state lanes → lanes.desk.idCounter ≤ job.id) :
    ∃ older newer, deliveredOf job.key more = older ++ job.status :: newer ∧
      (newer = [] → final.Holds job.key job.status) := by
  obtain ⟨lanes, refines, journal, -, passed, ledger⟩ := journal prior
  have free := unissued refines
  obtain ⟨reached, kept, journal, fresh, grown, brought⟩ := refines.history rest
    (fun more reached => Journal hydratedStatuses (past ++ more) reached ∧
      ∃ fresh, reached.log job.key (past ++ more) = lanes.log job.key past ++ fresh ∧
        fresh.map Job.status = deliveredOf job.key more)
    (by
      rw [List.append_nil]
      exact ⟨journal, [], (List.append_nil _).symm, rfl⟩)
    (by
      rintro more reached out next ⟨journal, fresh, grown, brought⟩ step
      obtain ⟨added, longer, statuses⟩ := step.log_grows job.key (past ++ more)
      rw [← List.append_assoc]
      refine ⟨journal.step step, fresh ++ added, ?_, ?_⟩
      · rw [longer, grown, List.append_assoc]
      · rw [List.map_append, brought, statuses, deliveredOf_append])
  obtain ⟨front, back, written⟩ := List.append_of_mem (mem_committedOf.mpr ⟨committed, rfl⟩)
  rw [Lanes.log, written, List.append_assoc, List.cons_append] at grown
  -- The job was not in the log at that point, where all ids were below the counter.
  have absent : job ∉ lanes.log job.key past := by
    intro member
    obtain early | carried := List.mem_append.mp member
    · exact absurd (passed job (mem_committedOf.mp early).1) (Nat.not_lt.mpr free)
    · have under := Stage.job?_of_carried carried
      exact absurd (ledger.below (ledger.job under).2) (Nat.not_lt.mpr free)
  obtain ⟨rest, inside, -⟩ | ⟨between, rfl, whole⟩ := split_append grown.symm
  · exact absurd (by rw [inside]; simp) absent
  · refine ⟨between.map Job.status, (back ++ (reached.stage job.key).carried).map Job.status, ?_, ?_⟩
    · rw [← brought, whole, List.map_append, List.map_cons]
    · intro nothing
      obtain ⟨rfl, uncarried⟩ := List.append_eq_nil_iff.mp (List.map_eq_nil_iff.mp nothing)
      refine ⟨reached, kept, ?_, ?_⟩
      · rw [← Stage.carried_status, uncarried]
        rfl
      · rw [journal.store, writtenOf_eq_map, written, List.map_append, List.getLast?_append]
        rfl

end Pipeline

namespace Service

variable {config : QueueCapacityConfig} {admits : List Event → Service → Action → Prop}
  {actions : List Action} {events : List Event} {self : Service}

/-- The keys a request was submitted for were parsed. -/
theorem submitted_parsed
    (run : (machine config).Run admits (start hydratedStatuses) actions events self)
    {request : Nat} {keys : List Key} {taken : UserAction} {user : String}
    (submitted : .submitted request keys taken user ∈ events) :
    ∀ key ∈ keys, ∃ text, Key.tryFrom text = .ok key := by
  have parsed := run.history (fun past _ => ∀ request keys taken user,
      .submitted request keys taken user ∈ past →
        ∀ key ∈ keys, ∃ text, Key.tryFrom text = .ok key)
    (by simp)
    (by
      intro past state action next out before _ fires request keys taken user member
      obtain early | late := List.mem_append.mp member
      · exact before _ _ _ _ early
      · cases step_cases fires with
        | submit _ built =>
            obtain same | inside := List.mem_cons.mp late
            · cases same
              exact fun key => buildKeys_parsed built
            · simp at inside
        | getSnapshot =>
            rw [Service.getSnapshot] at late
            simp only at late
            split at late <;> simp at late
        | _ => simp at late)
  exact parsed _ _ _ _ submitted

/-- The confirmed status of a key stays the last one published while nothing is published. -/
theorem holds_step {key : Key} {status : Status} {action : Action} {next : Service}
    {out : List Event} (holds : self.runtime.flatten.Holds key status)
    (fires : self.step config action = some (next, out))
    (nothing : deliveredOf key (tasks out) = []) : next.runtime.flatten.Holds key status := by
  have same : (pipelinePart config).report = Event.runtime? := by
    funext event
    exact Option.bind_fun_some _
  cases moves : (pipelinePart config).turn self action with
  | none =>
      obtain ⟨still, _⟩ := (pipelinePart config).idle fires moves
      rw [show next.runtime.flatten = self.runtime.flatten from still]
      exact holds
  | some taken =>
      have turns := (pipelinePart config).moves fires moves
      rw [same] at turns
      exact holds.step turns nothing

/-- A request that arrives is the first thing its step reports. -/
theorem submitted_first {request : Nat} {keys : List Key} {taken : UserAction} {user : String}
    {action : Action} {next : Service} {early late : List Event}
    (fires : self.step config action =
      some (next, early ++ .submitted request keys taken user :: late)) : early = [] := by
  have member : .submitted request keys taken user ∈
      early ++ .submitted request keys taken user :: late := by simp
  generalize reported : early ++ .submitted request keys taken user :: late = out at fires member
  cases step_cases fires with
  | submit =>
      cases early with
      | nil => rfl
      | cons head tail =>
          rw [List.cons_append] at reported
          have inside : .submitted request keys taken user ∈
              tail ++ .submitted request keys taken user :: late := by simp
          rw [(List.cons.inj reported).2] at inside
          simp at inside
  | getSnapshot =>
      rw [Service.getSnapshot] at member
      simp only at member
      split at member <;> simp at member
  | _ => simp at member

/-- The job of each update of a request answered `Ok` was published after the request arrived. -/
theorem brings
    (run : (machine config).Run admits (start hydratedStatuses) actions events self)
    {request : Nat} {keys : List Key} {taken : UserAction} {user : String}
    (submitted : .submitted request keys taken user ∈ events)
    (responded : .responded request (.ok ()) ∈ events) :
    ∃ front back channels, events = front ++ .submitted request keys taken user :: back ∧
      Requested events request keys taken user channels ∧
      ∀ key channel, (key, channel) ∈ keys.zip channels → ∃ job older newer,
        JobOf events taken user key channel job ∧
        deliveredOf key (tasks back) = older ++ job.status :: newer ∧
        (newer = [] → self.runtime.flatten.Holds key job.status) := by
  obtain ⟨others, asked, name, channels, requested, committed⟩ :=
    responded_committed run responded
  obtain ⟨rfl, rfl, rfl⟩ := submitted_once run submitted requested.submitted
  obtain ⟨front, back, split⟩ := List.append_of_mem submitted
  refine ⟨front, back, channels, split, requested, fun key channel paired => ?_⟩
  obtain ⟨job, owns, done⟩ := committed key channel paired
  obtain ⟨state, cut⟩ := cut_of_run run split submitted_first
  obtain ⟨_, prior⟩ := cut.prior
  obtain ⟨_, later⟩ := cut.later
  obtain ⟨_, earlier⟩ := tasks_run prior
  obtain ⟨_, rest⟩ := tasks_from later
  have inside : .committed job ∈
      tasks front ++ tasks (.submitted request keys taken user :: back) := by
    rw [split, tasks, List.filterMap_append] at done
    exact done
  obtain ⟨older, newer, brought, holds⟩ := Pipeline.brings earlier rest inside fun refines =>
    cut.unissued List.mem_cons_self (split ▸ requested.pair paired) (split ▸ owns.admitted) refines
  rw [owns.named] at brought holds
  exact ⟨job, older, newer, owns, brought, holds⟩

end Service

namespace Deployment

variable {config : QueueCapacityConfig} {admits : List Event → Deployment → Action → Prop}
  {actions : List Action} {events past out : List Event} {self next : Deployment}

/-- What a process did. -/
def Event.during? (incarnation : Nat) : Event → Option Service.Event
  | .service number event => if number = incarnation then some event else none
  | _ => none

def during (incarnation : Nat) (events : List Event) : List Service.Event :=
  events.filterMap (Event.during? incarnation)

/-- A status that reached the topic, as the event of its publish. -/
def Event.reached? : Event → Option AcornAlarms.Event
  | .appended key status => some (.published key status true)
  | _ => none

def log (events : List Event) : List AcornAlarms.Event := events.filterMap Event.reached?

/-- The statuses of a key that reached the topic, oldest first. -/
def appendedOf (key : Key) (events : List Event) : List Status := deliveredOf key (log events)

section

variable (number : Nat) (key : Key) (past out : List Event) (statuses : List (Key × Status))

@[simp] theorem during_append :
    during number (past ++ out) = during number past ++ during number out :=
  List.filterMap_append

@[simp] theorem log_append : log (past ++ out) = log past ++ log out := List.filterMap_append

@[simp] theorem appendedOf_append :
    appendedOf key (past ++ out) = appendedOf key past ++ appendedOf key out := by
  rw [appendedOf, log_append, deliveredOf_append]
  rfl

@[simp] theorem log_appends :
    log (appends statuses) = statuses.map fun entry => .published entry.1 entry.2 true := by
  simp [log, appends, Event.reached?, Function.comp_def]

@[simp] theorem during_appends : during number (appends statuses) = [] := by
  simp [during, appends, Event.during?, Function.comp_def]

@[simp] theorem log_service (out : List Service.Event) :
    log (out.map (.service number)) = [] := by
  simp [log, Event.reached?, Function.comp_def]

theorem during_service (out : List Service.Event) :
    during number (out.map (.service number)) = out := by
  simp [during, Event.during?, Function.comp_def]

theorem during_other {number other : Nat} (different : other ≠ number)
    (out : List Service.Event) : during number (out.map (.service other)) = [] := by
  simp [during, Event.during?, Function.comp_def, different]

end

@[simp] theorem mem_during {number : Nat} {event : Service.Event} :
    event ∈ during number events ↔ .service number event ∈ events := by
  rw [during, List.mem_filterMap]
  constructor
  · rintro ⟨whole, member, part⟩
    cases whole with
    | service other inner =>
        simp only [Event.during?, Option.ite_none_right_eq_some, Option.some.injEq] at part
        obtain ⟨rfl, rfl⟩ := part
        exact member
    | _ => cases part
  · exact fun member => ⟨_, member, if_pos rfl⟩

/-- What is appended to the topic is recorded for its keys. -/
theorem append_eq (json : StatusJson) (topic : List StringMessage)
    (statuses : List (Key × Status)) :
    append json topic statuses = topic ++ publishedRecords json (log (appends statuses)) := by
  rw [log_appends, publishedRecords, List.filterMap_map]
  simp [append, Function.comp_def, AcornAlarms.Event.record?]

/-- A publish that succeeded has reached the topic. -/
theorem delivered_reaches (key : Key) (reached : Bool) (events : List AcornAlarms.Event) :
    (deliveredOf key events).Sublist
      (appendedOf key (appends (events.filterMap (reaches reached)))) := by
  rw [appendedOf, log_appends]
  induction events with
  | nil => exact .refl _
  | cons event rest ih =>
      cases event with
      | published other status delivered =>
          cases delivered with
          | true =>
              simp only [deliveredOf_cons, reaches, Bool.true_or, if_true, List.filterMap_cons,
                List.map_cons]
              exact ih.append_left _
          | false =>
              cases reached with
              | true =>
                  simp only [deliveredOf_cons, reaches, Bool.or_true, if_true,
                    List.filterMap_cons, List.map_cons]
                  exact ih.trans (List.sublist_append_right _ _)
              | false => exact ih
      | _ => exact ih

/-- What was recorded for a key between two points of a history. -/
theorem appendedOf_split {key : Key} {status : Status} {older newer : List Status}
    (split : appendedOf key events = older ++ status :: newer) :
    ∃ before after, events = before ++ .appended key status :: after ∧
      appendedOf key before = older ∧ appendedOf key after = newer := by
  have once : ∀ events, appendedOf key events =
      events.filterMap fun event => event.reached?.bind (AcornAlarms.Event.delivery? key) :=
    fun events => List.filterMap_filterMap
  rw [once] at split
  obtain ⟨first, second, rfl, early, late⟩ := List.filterMap_eq_append_iff.mp split
  obtain ⟨skipped, event, after, rfl, silent, brings, rest⟩ := List.filterMap_eq_cons_iff.mp late
  obtain ⟨_, reached, delivers⟩ := Option.bind_eq_some_iff.mp brings
  cases event with
  | appended other sent =>
      obtain rfl := Option.some.inj reached
      simp only [AcornAlarms.Event.delivery?, Option.ite_none_right_eq_some,
        Option.some.injEq] at delivers
      obtain ⟨rfl, rfl⟩ := delivers
      refine ⟨first ++ skipped, after, by simp, ?_, by rw [once, rest]⟩
      rw [once, List.filterMap_append, early, List.filterMap_eq_nil_iff.mpr silent, List.append_nil]
  | _ => cases reached

/-- The record of the job of an update lies between the arrival of its request and the answer. -/
structure Landed (number request : Nat) (keys : List Key) (taken : UserAction) (user : String)
    (key : Key) (channel : Confirmation) (past before after : List Event) (job : Job) : Prop where
  owns : Service.JobOf (during number past) taken user key channel job
  placed : past = before ++ .appended key job.status :: after
  asked : .service number (.submitted request keys taken user) ∈ before
  told : .service number (.responded request (.ok ())) ∈ after

theorem Landed.within {number request : Nat} {keys : List Key} {taken : UserAction} {user : String}
    {key : Key} {channel : Confirmation} {before after : List Event} {job : Job}
    (landed : Landed number request keys taken user key channel past before after job)
    (earlier later : List Event) :
    Landed number request keys taken user key channel (earlier ++ past ++ later)
      (earlier ++ before) (after ++ later) job where
  owns := landed.owns.mono (by simp)
  placed := by
    rw [landed.placed]
    simp
  asked := List.mem_append_right _ landed.asked
  told := List.mem_append_left _ landed.told

theorem Landed.appended {number request : Nat} {keys : List Key} {taken : UserAction}
    {user : String} {key : Key} {channel : Confirmation} {before after : List Event} {job : Job}
    (landed : Landed number request keys taken user key channel past before after job) :
    appendedOf key past = appendedOf key before ++ job.status :: appendedOf key after := by
  rw [landed.placed, appendedOf_append]
  congr 1
  simp [appendedOf, log, Event.reached?, deliveredOf_cons, AcornAlarms.Event.delivery?]

/-- What a process reported as done has reached the topic. If nothing followed for the device,
then what is said of it holds. -/
def Kept (number : Nat) (past : List Event) (holds : Key → Status → Prop) : Prop :=
  ∀ request keys taken user, .service number (.submitted request keys taken user) ∈ past →
    .service number (.responded request (.ok ())) ∈ past →
    ∃ channels, Service.Requested (during number past) request keys taken user channels ∧
      ∀ key channel, (key, channel) ∈ keys.zip channels →
        (∃ text, Key.tryFrom text = .ok key) ∧
        ∃ before after job,
          Landed number request keys taken user key channel past before after job ∧
          (appendedOf key after = [] → holds key job.status)

/-- So it stays in a longer history in which the process did nothing else. -/
theorem Kept.within {number : Nat} {holds : Key → Status → Prop} (kept : Kept number past holds)
    (front back : List Event) (later : Key → Status → Prop) (before : during number front = [])
    (after : during number back = [])
    (stays : ∀ {key status}, holds key status → appendedOf key back = [] → later key status) :
    Kept number (front ++ past ++ back) later := by
  have own : during number (front ++ past ++ back) = during number past := by
    rw [during_append, during_append, before, after, List.nil_append, List.append_nil]
  intro request keys taken user submitted responded
  rw [← mem_during, own, mem_during] at submitted responded
  obtain ⟨channels, requested, each⟩ := kept request keys taken user submitted responded
  refine ⟨channels, own.symm ▸ requested, fun key channel paired => ?_⟩
  obtain ⟨parsed, first, second, job, landed, holds⟩ := each key channel paired
  refine ⟨parsed, _, _, job, landed.within front back, fun nothing => ?_⟩
  rw [appendedOf_append, List.append_eq_nil_iff] at nothing
  exact stays (holds nothing.1) nothing.2

/-- A process that runs started from the topic as it then was, and brings what it publishes to
the topic. -/
structure Incarnation (config : QueueCapacityConfig) (json : StatusJson)
    (records : List StringMessage) (earlier current : List Event) (number : Nat)
    (service : Service) : Prop where
  ran : ∃ snapshot hydratedStatuses,
    Hydrates json snapshot (records ++ publishedRecords json (log earlier)) hydratedStatuses ∧
    ∃ actions, (Service.machine config).Run Machine.Every (.start hydratedStatuses) actions
      (during number current) service
  fresh : during number earlier = []
  own : ∀ other, other ≠ number → during other current = []
  reaches : ∀ {front back}, during number current = front ++ back →
    ∃ first second, current = first ++ second ∧ during number first = front ∧
      ∀ key, (deliveredOf key (Service.tasks back)).Sublist (appendedOf key second)
  kept : Kept number current fun key status => service.runtime.flatten.Holds key status

namespace Incarnation

variable {earlier current : List Event} {number : Nat} {service after : Service}
  {made : List Service.Event} {action : Service.Action}

/-- What the process did in a longer history. -/
theorem during_served (reached : Bool) :
    during self.incarnation (current ++ (self.served json reached after made).2) =
      during self.incarnation current ++ made := by
  rw [during_append, served, during_append, during_service, during_appends, List.append_nil]

/-- A step of the service is a step of its process. -/
theorem runs (incarnation : Incarnation config json records earlier current number service)
    (fires : service.step config action = some (after, made)) :
    ∃ snapshot hydratedStatuses,
      Hydrates json snapshot (records ++ publishedRecords json (log earlier)) hydratedStatuses ∧
      ∃ actions, (Service.machine config).Run Machine.Every (.start hydratedStatuses) actions
        (during number current ++ made) after := by
  obtain ⟨snapshot, hydratedStatuses, hydrates, actions, run⟩ := incarnation.ran
  exact ⟨snapshot, hydratedStatuses, hydrates, actions ++ [action], run.snoc trivial fires⟩

/-- What the process publishes in a step reaches the topic in it. -/
theorem reaches_step
    (incarnation : Incarnation config json records earlier current self.incarnation service)
    (reached : Bool) {front back : List Service.Event}
    (split : during self.incarnation current ++ made = front ++ back) :
    ∃ first second, current ++ (self.served json reached after made).2 = first ++ second ∧
      during self.incarnation first = front ∧
      ∀ key, (deliveredOf key (Service.tasks back)).Sublist (appendedOf key second) := by
  have brought : ∀ key, (deliveredOf key (Service.tasks made)).Sublist
      (appendedOf key (appends ((made.filterMap Service.Event.runtime?).filterMap
        (Deployment.reaches reached)))) := fun key => delivered_reaches key reached _
  obtain ⟨rest, rfl, same⟩ | ⟨rest, same, rfl⟩ := List.append_eq_append_iff.mp split
  · -- The cut is in the step.
    subst same
    refine ⟨current ++ rest.map (.service self.incarnation),
      back.map (.service self.incarnation) ++ appends
        (((rest ++ back).filterMap Service.Event.runtime?).filterMap (Deployment.reaches reached)),
      ?_, ?_, fun key => ?_⟩
    · rw [served, List.map_append, List.append_assoc, List.append_assoc]
    · rw [during_append, during_service]
    · rw [appendedOf_append]
      refine .trans ?_ ((brought key).trans (List.sublist_append_right _ _))
      rw [Service.tasks, Service.tasks, List.filterMap_append, deliveredOf_append]
      exact List.sublist_append_right _ _
  · obtain ⟨first, second, rfl, early, late⟩ := incarnation.reaches same
    refine ⟨first, _, List.append_assoc _ _ _, early, fun key => ?_⟩
    rw [Service.tasks, List.filterMap_append, deliveredOf_append, appendedOf_append, served,
      appendedOf_append]
    exact (late key).append ((brought key).trans (List.sublist_append_right _ _))

/-- A request that is answered in a step has its records on the topic. -/
theorem answered
    (incarnation : Incarnation config json records earlier current self.incarnation service)
    (fires : service.step config action = some (after, made)) (reached : Bool) {request : Nat}
    {keys : List Key} {taken : UserAction} {user : String}
    (submitted : .submitted request keys taken user ∈ during self.incarnation current ++ made)
    (responded : .responded request (.ok ()) ∈ made) :
    ∃ channels, Service.Requested (during self.incarnation current ++ made) request keys taken
        user channels ∧
      ∀ key channel, (key, channel) ∈ keys.zip channels →
        ∃ before behind job, Landed self.incarnation request keys taken user key channel
            (current ++ (self.served json reached after made).2) before behind job ∧
          (appendedOf key behind = [] → after.runtime.flatten.Holds key job.status) := by
  obtain ⟨_, _, -, _, run⟩ := incarnation.runs fires
  obtain ⟨front, back, channels, split, requested, brings⟩ :=
    Service.brings run submitted (List.mem_append_right _ responded)
  refine ⟨channels, requested, fun key channel paired => ?_⟩
  obtain ⟨job, older, newer, owns, brought, holds⟩ := brings key channel paired
  -- The step does nothing else.
  obtain ⟨early, late, whole⟩ := List.append_of_mem responded
  obtain ⟨rfl, rfl⟩ := Service.step_returned rfl (whole ▸ fires)
  rw [List.nil_append] at whole
  subst whole
  obtain ⟨rest, inside, rfl⟩ | ⟨_, _, wrong⟩ := split_append split
  · rw [Service.tasks_returned rfl] at brought
    obtain ⟨first, second, rfl, named, reaches⟩ := incarnation.reaches
      (inside.trans (List.append_cons _ _ _))
    obtain ⟨above, below, records, more⟩ := sublist_around (brought ▸ reaches key)
    obtain ⟨before, behind, rfl, -, follows⟩ := appendedOf_split records
    refine ⟨first ++ before, behind ++ (self.served json reached after
      [.responded request (.ok ())]).2, job, ?_, fun nothing => ?_⟩
    · constructor
      · rw [during_served]
        exact owns
      · simp
      · rw [List.mem_append, ← mem_during, named]
        simp
      · simp [served]
    · rw [appendedOf_append, follows, List.append_eq_nil_iff] at nothing
      exact holds (List.sublist_nil.mp (nothing.1 ▸ more))
  · obtain ⟨-, wrong⟩ := split_singleton wrong
    cases wrong

/-- What was reported as done stays on the topic. -/
theorem kept_step
    (incarnation : Incarnation config json records earlier current self.incarnation service)
    (fires : service.step config action = some (after, made)) (reached : Bool) :
    Kept self.incarnation (current ++ (self.served json reached after made).2) fun key status =>
      after.runtime.flatten.Holds key status := by
  obtain ⟨_, _, -, _, longer⟩ := incarnation.runs fires
  intro request keys taken user submitted responded
  rw [← mem_during, during_served] at submitted responded
  rw [during_served]
  have parsed : ∀ {key} {channel : Confirmation} {channels}, (key, channel) ∈ keys.zip channels →
      ∃ text, Key.tryFrom text = .ok key := fun paired =>
    Service.submitted_parsed longer submitted _ (List.of_mem_zip paired).1
  obtain old | new := List.mem_append.mp responded
  · obtain ⟨_, _, -, _, run⟩ := incarnation.ran
    obtain ⟨_, _, _, _, requested, _⟩ := Service.responded_committed run old
    obtain ⟨rfl, rfl, rfl⟩ := Service.submitted_once longer submitted
      (List.mem_append_left _ requested.submitted)
    obtain ⟨channels, requested, each⟩ := incarnation.kept request keys taken user
      (mem_during.mp requested.submitted) (mem_during.mp old)
    refine ⟨channels, requested.append _, fun key channel paired => ⟨parsed paired, ?_⟩⟩
    obtain ⟨_, before, behind, job, landed, holds⟩ := each key channel paired
    refine ⟨before, _, job, landed.within [] _, fun nothing => ?_⟩
    rw [appendedOf_append, served, appendedOf_append, List.append_eq_nil_iff,
      List.append_eq_nil_iff] at nothing
    obtain ⟨still, -, silent⟩ := nothing
    refine Service.holds_step (holds still) fires ?_
    exact List.sublist_nil.mp (silent ▸ delivered_reaches key reached _)
  · obtain ⟨channels, requested, each⟩ := incarnation.answered fires reached submitted new
    exact ⟨channels, requested, fun key channel paired => ⟨parsed paired, each key channel paired⟩⟩

/-- A step of the service is a step of its process. -/
theorem serve
    (incarnation : Incarnation config json records earlier current self.incarnation service)
    (fires : service.step config action = some (after, made)) (reached : Bool) :
    Incarnation config json records earlier
      (current ++ (self.served json reached after made).2) self.incarnation after where
  ran := by
    rw [during_served]
    exact incarnation.runs fires
  fresh := incarnation.fresh
  own := by
    intro other different
    rw [during_append, incarnation.own other different, served, during_append,
      during_other different.symm, during_appends]
    rfl
  reaches := by
    intro front back split
    rw [during_served] at split
    exact incarnation.reaches_step reached split
  kept := incarnation.kept_step fires reached

/-- A key for which nothing reached the topic is confirmed as it was hydrated. -/
theorem untouched (incarnation : Incarnation config json records earlier current number service)
    {key : Key} (nothing : appendedOf key current = []) :
    ∃ snapshot, (service.runtime.tasks.coordinator.confirmedState.get? key).map Prod.fst =
      hydration json snapshot (records ++ publishedRecords json (log earlier)) key := by
  obtain ⟨snapshot, hydratedStatuses, hydrates, _, run⟩ := incarnation.ran
  obtain ⟨_, tasks⟩ := Service.tasks_run run
  obtain ⟨lanes, refines, journal, -, -⟩ := Pipeline.journal tasks
  obtain ⟨first, second, rfl, -, reaches⟩ :=
    incarnation.reaches (List.nil_append (during number current)).symm
  rw [appendedOf_append, List.append_eq_nil_iff] at nothing
  have reaches := reaches key
  rw [nothing.2, journal.log] at reaches
  obtain ⟨unwritten, -⟩ := List.append_eq_nil_iff.mp (List.sublist_nil.mp reaches)
  have confirmed := journal.store key
  rw [← refines.desk, unwritten, hydrates.get?] at confirmed
  exact ⟨snapshot, confirmed⟩

/-- What a process publishes is of the source of its key. -/
theorem published_source
    (incarnation : Incarnation config json records earlier current number service) {key : Key}
    {status : Status} {delivered : Bool}
    (member : .published key status delivered ∈ Service.tasks (during number current)) :
    status.source.value = key.source := by
  obtain ⟨snapshot, hydratedStatuses, hydrates, _, run⟩ := incarnation.ran
  obtain ⟨_, tasks⟩ := Service.tasks_run run
  exact Pipeline.published_source tasks hydrates.sourced member

theorem underway_source
    (incarnation : Incarnation config json records earlier current number service)
    {places : List Nat} {key : Key} {status : Status}
    (member : (key, status) ∈ underway service places) : status.source.value = key.source := by
  obtain ⟨snapshot, hydratedStatuses, hydrates, _, run⟩ := incarnation.ran
  obtain ⟨_, tasks⟩ := Service.tasks_run run
  obtain ⟨place, -, found⟩ := List.mem_filterMap.mp member
  obtain ⟨attempt, held, same⟩ := Option.map_eq_some_iff.mp found
  obtain ⟨rfl, rfl⟩ := Prod.mk.inj same
  exact Pipeline.attempt_source tasks hydrates.sourced (List.mem_of_getElem? held)

end Incarnation

/-- The topic and the history agree, over every process so far. -/
structure Recorded (config : QueueCapacityConfig) (json : StatusJson)
    (records : List StringMessage) (past : List Event) (state : Deployment) : Prop where
  topic : state.topic = records ++ publishedRecords json (log past)
  sourced : ∀ {key status}, .appended key status ∈ past → status.source.value = key.source
  kept : ∀ number, Kept number past fun _ _ => True
  numbered : ∀ {number}, state.incarnation < number → during number past = []
  runs : ∀ {service}, state.service = some service → ∃ earlier current,
    past = earlier ++ current ∧ (∀ number, Kept number earlier fun _ _ => True) ∧
      Incarnation config json records earlier current state.incarnation service

namespace Recorded

/-- The topic after some more statuses. -/
theorem topic_append (recorded : Recorded config json records past self)
    (statuses : List (Key × Status)) {before : List Event} (unlogged : log before = []) :
    append json self.topic statuses =
      records ++ publishedRecords json (log (past ++ (before ++ appends statuses))) := by
  rw [append_eq, recorded.topic, log_append, log_append, unlogged, List.nil_append,
    publishedRecords, publishedRecords, publishedRecords, List.filterMap_append,
    List.append_assoc]

theorem mem_appends {key : Key} {status : Status} {statuses : List (Key × Status)} :
    .appended key status ∈ appends statuses ↔ (key, status) ∈ statuses := by
  simp [appends]

/-- What a step brings to the topic is what it published. -/
theorem mem_reaches {key : Key} {status : Status} {reached : Bool}
    {events : List AcornAlarms.Event}
    (brought : (key, status) ∈ events.filterMap (reaches reached)) :
    ∃ delivered, .published key status delivered ∈ events := by
  obtain ⟨event, member, brings⟩ := List.mem_filterMap.mp brought
  cases event with
  | published other sent delivered =>
      simp only [reaches, Option.ite_none_right_eq_some, Option.some.injEq,
        Prod.mk.injEq] at brings
      obtain ⟨-, rfl, rfl⟩ := brings
      exact ⟨delivered, member⟩
  | _ => cases brings

theorem serve (recorded : Recorded config json records past self) {service after : Service}
    (up : self.service = some service) {action : Service.Action} {made : List Service.Event}
    (fires : service.step config action = some (after, made)) (reached : Bool) :
    Recorded config json records (past ++ (self.served json reached after made).2)
      (self.served json reached after made).1 := by
  obtain ⟨earlier, current, rfl, before, incarnation⟩ := recorded.runs up
  have longer := incarnation.serve fires reached
  have numbers : ∀ {number}, number ≠ self.incarnation →
      during number (self.served json reached after made).2 = [] := by
    intro number different
    rw [served, during_append, during_other different.symm, during_appends]
    rfl
  constructor
  · exact recorded.topic_append _ (log_service _ _)
  · intro key status member
    obtain early | late := List.mem_append.mp member
    · exact recorded.sourced early
    · obtain own | brought := List.mem_append.mp late
      · obtain ⟨_, -, wrong⟩ := List.mem_map.mp own
        cases wrong
      obtain ⟨delivered, done⟩ := mem_reaches (mem_appends.mp brought)
      have published : .published key status delivered ∈ Service.tasks
          (during self.incarnation (current ++ (self.served json reached after made).2)) := by
        rw [during_append, served, during_append, during_service]
        simp only [Service.tasks, List.filterMap_append, List.mem_append]
        exact .inr (.inl done)
      exact longer.published_source published
  · intro number
    by_cases same : number = self.incarnation
    · subst same
      have kept := longer.kept.within earlier [] (fun _ _ => True) longer.fresh rfl
        fun _ _ => trivial
      rwa [List.append_nil, ← List.append_assoc] at kept
    · exact (recorded.kept number).within [] _ _ rfl (numbers same) fun _ _ => trivial
  · intro number above
    rw [during_append, recorded.numbered above, numbers (Nat.ne_of_gt above)]
    rfl
  · intro other running
    obtain rfl := Option.some.inj running
    exact ⟨earlier, _, List.append_assoc _ _ _, before, longer⟩

theorem crash (recorded : Recorded config json records past self) {service : Service}
    (up : self.service = some service) (reached : List Nat) :
    Recorded config json records (past ++ .crashed :: appends (underway service reached))
      { self with
        service := none
        topic := append json self.topic (underway service reached) } := by
  have idle : ∀ number, during number (.crashed :: appends (underway service reached)) = [] :=
    fun number => during_appends number _
  have unlogged : log [.crashed] = [] := rfl
  constructor
  · exact recorded.topic_append _ unlogged
  · intro key status member
    obtain early | late := List.mem_append.mp member
    · exact recorded.sourced early
    · simp only [List.mem_cons, reduceCtorEq, false_or, mem_appends] at late
      obtain ⟨_, _, -, -, incarnation⟩ := recorded.runs up
      exact incarnation.underway_source late
  · exact fun number =>
      (recorded.kept number).within [] _ _ rfl (idle number) fun _ _ => trivial
  · intro number above
    rw [during_append, recorded.numbered above, idle]
    rfl
  · intro other running
    cases running

/-- With no process, an event that brings nothing to the topic leaves all as it was. -/
theorem aside (recorded : Recorded config json records past self) (down : self.service = none)
    {event : Event} (unlogged : log [event] = []) (idle : ∀ number, during number [event] = []) :
    Recorded config json records (past ++ [event]) self := by
  constructor
  · rw [log_append, unlogged, List.append_nil]
    exact recorded.topic
  · intro key status member
    obtain early | late := List.mem_append.mp member
    · exact recorded.sourced early
    · obtain rfl := List.mem_singleton.mp late
      cases unlogged
  · exact fun number =>
      (recorded.kept number).within [] _ _ rfl (idle number) fun _ _ => trivial
  · intro number above
    rw [during_append, recorded.numbered above, idle]
    rfl
  · intro service running
    rw [down] at running
    cases running

/-- A process starts from what the topic and the proxy have. -/
theorem boot (recorded : Recorded config json records past self) (down : self.service = none)
    {entries : List (Key × Status)} {hydratedStatuses : FiniteMap Key Status}
    (order : entries.Perm (reduceSnapshot json self.topic).entries)
    (starts : entries.foldlM (FiniteMap.insertNew HydrationError.keyInMultipleSources)
      (loadAcnetHydration snapshot) = .ok hydratedStatuses) :
    Recorded config json records (past ++ [.booted])
      { self with
        service := some (.start hydratedStatuses)
        incarnation := self.incarnation + 1 } := by
  have before : Recorded config json records (past ++ [.booted]) self :=
    recorded.aside down rfl fun _ => rfl
  constructor
  · exact before.topic
  · exact before.sourced
  · exact before.kept
  · exact fun above => before.numbered (Nat.lt_of_succ_lt above)
  · intro service running
    obtain rfl := Option.some.inj running
    refine ⟨past ++ [.booted], [], (List.append_nil _).symm, before.kept, ?_⟩
    constructor
    · refine ⟨snapshot, hydratedStatuses, ⟨entries, ?_, starts⟩, [], .refl⟩
      rw [← before.topic]
      exact order
    · exact before.numbered (Nat.lt_succ_self _)
    · exact fun _ _ => rfl
    · intro front back split
      obtain ⟨rfl, rfl⟩ := List.append_eq_nil_iff.mp split.symm
      exact ⟨[], [], rfl, rfl, fun _ => .refl _⟩
    · exact fun _ _ _ _ member => absurd member List.not_mem_nil

theorem step (recorded : Recorded config json records past self) {action : Action}
    (fires : self.step config json action = some (next, out)) :
    Recorded config json records (past ++ out) next := by
  cases step_cases fires with
  | serve up steps => exact recorded.serve up steps _
  | crash up => exact recorded.crash up _
  | boot down order starts => exact recorded.boot down order starts
  | refuse down _ _ => exact recorded.aside down rfl fun _ => rfl

/-- So they do in every run. -/
theorem run (run : (machine config json).Run admits (new records) actions events self) :
    Recorded config json records events self := by
  refine run.history (Recorded config json records) ?_ fun before _ fires => before.step fires
  constructor
  · exact (List.append_nil records).symm
  · exact fun member => absurd member List.not_mem_nil
  · exact fun _ _ _ _ _ member => absurd member List.not_mem_nil
  · exact fun _ => rfl
  · intro service running
    cases running

end Recorded

theorem mem_appendedOf {key : Key} {status : Status} :
    status ∈ appendedOf key past ↔ .appended key status ∈ past := by
  simp only [appendedOf, deliveredOf, log, List.mem_filterMap]
  constructor
  · rintro ⟨_, ⟨event, member, brings⟩, reports⟩
    cases event with
    | appended other sent =>
        obtain rfl := Option.some.inj brings
        simp only [AcornAlarms.Event.delivery?, Option.ite_none_right_eq_some,
          Option.some.injEq] at reports
        obtain ⟨rfl, rfl⟩ := reports
        exact member
    | _ => cases brings
  · intro member
    exact ⟨_, ⟨_, member, rfl⟩, if_pos rfl⟩

/-- What the topic ends with for a key is its last status if that is a bypass. -/
theorem reduced {key : Key} {last : Status}
    (parsed : ∃ text, Key.tryFrom text = .ok key) (epics : key.source = .epics)
    (faithful : ∀ status ∈ appendedOf key past,
      status.source.value = .epics ∧ json.Recodes status)
    (ends : (appendedOf key past).getLast? = some last) :
    (reduceSnapshot json (records ++ publishedRecords json (log past))).get? key =
      if last.state.value = .bypassed then some last else none := by
  obtain ⟨text, parsed⟩ := parsed
  have readable : ∀ status, (deliveredOf key (log past)).getLast? = some status →
      status.source.value = .epics ∧ json.Recodes status :=
    fun status found => faithful status (List.mem_of_getLast? found)
  rw [appendedOf] at ends
  rw [reduceSnapshot, List.foldl_append,
    reduce_publishedRecords (Key.tryFrom_toText_of_ok parsed) epics _ _ readable, ends]

/-- A running process has confirmed what was reported as done as long as nothing newer reached the
topic, whether it reported it itself or started from it. -/
theorem confirmed (recorded : Recorded config json records events self) (number request : Nat)
    {keys : List Key} {wake : Option Timestamp} {user : String}
    (submitted : .service number (.submitted request keys (.bypass wake) user) ∈ events)
    (responded : .service number (.responded request (.ok ())) ∈ events) :
    ∃ channels, Service.Requested (during number events) request keys (.bypass wake) user channels ∧
      ∀ key channel, (key, channel) ∈ keys.zip channels → key.source = .epics →
        (∀ status ∈ appendedOf key events, status.source.value = .epics ∧ json.Recodes status) →
        (∃ text, Key.tryFrom text = .ok key) ∧
        ∃ before after job,
          Landed number request keys (.bypass wake) user key channel events before after job ∧
          ∀ service, self.service = some service → appendedOf key after = [] →
            (service.runtime.tasks.coordinator.confirmedState.get? key).map Prod.fst =
              some job.status := by
  cases up : self.service with
  | none =>
      obtain ⟨channels, requested, each⟩ := recorded.kept _ _ _ _ _ submitted responded
      refine ⟨channels, requested, fun key channel paired _ _ => ?_⟩
      obtain ⟨parsed, before, after, job, landed, -⟩ := each key channel paired
      exact ⟨parsed, before, after, job, landed, by simp⟩
  | some service =>
      obtain ⟨earlier, current, rfl, kept, incarnation⟩ := recorded.runs up
      by_cases same : number = self.incarnation
      · subst same
        have own := incarnation.kept.within earlier []
          (fun key status => service.runtime.flatten.Holds key status) incarnation.fresh rfl
          fun holds _ => holds
        rw [List.append_nil] at own
        obtain ⟨channels, requested, each⟩ := own _ _ _ _ submitted responded
        refine ⟨channels, requested, fun key channel paired _ _ => ?_⟩
        obtain ⟨parsed, before, after, job, landed, holds⟩ := each key channel paired
        refine ⟨parsed, before, after, job, landed, ?_⟩
        rintro _ ⟨⟩ nothing
        exact (holds nothing).confirmed
      · -- The process started from a topic that ends with the record.
        have idle := incarnation.own number same
        rw [← mem_during, during_append, idle, List.append_nil, mem_during] at submitted responded
        obtain ⟨channels, requested, each⟩ := kept number _ _ _ _ submitted responded
        refine ⟨channels, ?_, fun key channel paired epics faithful => ?_⟩
        · rw [during_append, idle, List.append_nil]
          exact requested
        obtain ⟨parsed, before, after, job, landed, -⟩ := each key channel paired
        refine ⟨parsed, before, after ++ current, job, landed.within [] current, ?_⟩
        rintro _ ⟨⟩ nothing
        rw [appendedOf_append, List.append_eq_nil_iff] at nothing
        obtain ⟨snapshot, confirmed⟩ := incarnation.untouched nothing.2
        have ends : (appendedOf key earlier).getLast? = some job.status := by
          rw [landed.appended, nothing.1]
          exact List.getLast?_concat
        have known : ∀ status ∈ appendedOf key earlier,
            status.source.value = .epics ∧ json.Recodes status := fun status inside =>
          faithful status (by rw [appendedOf_append]; exact List.mem_append_left _ inside)
        obtain ⟨now, built⟩ := landed.owns.built
        rw [confirmed, hydration, reduced parsed epics known ends, built]
        rfl

/-- However often the process ends and starts again, the record of the job of a bypass that was
reported as done stands on the topic, appended between the arrival of the request and the answer.
The topic ends with it, or with something newer, and a running process has confirmed it as long as
there is nothing newer. -/
theorem bypasses_survive
    (run : (machine config json).Run admits (new records) actions events self)
    {number request : Nat} {keys : List Key} {wake : Option Timestamp} {user : String}
    (submitted : .service number (.submitted request keys (.bypass wake) user) ∈ events)
    (responded : .service number (.responded request (.ok ())) ∈ events) :
    ∃ channels, Service.Requested (during number events) request keys (.bypass wake) user channels ∧
      ∀ key channel, (key, channel) ∈ keys.zip channels → key.source = .epics →
        (∀ status ∈ appendedOf key events, json.Recodes status) →
        ∃ before after job,
          Landed number request keys (.bypass wake) user key channel events before after job ∧
          (reduceSnapshot json self.topic).get? key =
            (job.status :: appendedOf key after).getLast?.filter
              (fun status => status.state.value = .bypassed) ∧
          ∀ service, self.service = some service → appendedOf key after = [] →
            (service.runtime.tasks.coordinator.confirmedState.get? key).map Prod.fst =
              some job.status := by
  have recorded := Recorded.run run
  obtain ⟨channels, requested, each⟩ := confirmed recorded number request submitted responded
  refine ⟨channels, requested, fun key channel paired epics recodes => ?_⟩
  have faithful : ∀ status ∈ appendedOf key events,
      status.source.value = .epics ∧ json.Recodes status := fun status inside =>
    ⟨(recorded.sourced (mem_appendedOf.mp inside)).trans epics, recodes status inside⟩
  obtain ⟨parsed, before, after, job, landed, stands⟩ := each key channel paired epics faithful
  refine ⟨before, after, job, landed, ?_, stands⟩
  have last := List.getLast?_eq_some_getLast (List.cons_ne_nil job.status (appendedOf key after))
  have ends : (appendedOf key events).getLast? =
      some ((job.status :: appendedOf key after).getLast (List.cons_ne_nil _ _)) := by
    rw [landed.appended, List.getLast?_append, last]
    rfl
  rw [recorded.topic, reduced parsed epics faithful ends, last]
  simp [Option.filter]

end Deployment

end

section

attribute [local instance] asciiPlatform

/-- An operator bypasses the beam and is answered. -/
def Service.beamAnswered : List Action :=
  [.request (.bypass ["BEAM#Epics"] "operator"), .trySend 0, .takeUser 10] ++ carry ++ deliver ++
    [.respond 0]

namespace Deployment

/-- The process ends after that. -/
def beamCrashed : List Action :=
  .boot [] [] :: Service.beamAnswered.map (.serve · false) ++ [.crash []]

set_option maxRecDepth 2000 in
/-- The next process takes the bypass from the topic. -/
theorem bypasses_survive_beam : ∃ final events service before after, ∃ job : Job,
    (machine Service.narrow beamJson).Run Machine.Every (new [])
      (beamCrashed ++ [.boot [] [(beam, servedBypass)]]) events final ∧
    events = before ++ .appended beam job.status :: after ∧
    .service 1 (.submitted 0 [beam] (.bypass none) "operator") ∈ before ∧
    .service 1 (.responded 0 (.ok ())) ∈ after ∧ job.status = servedBypass ∧
    (reduceSnapshot beamJson final.topic).get? beam = some servedBypass ∧
    final.service = some service ∧
    (service.runtime.tasks.coordinator.confirmedState.get? beam).map Prod.fst =
      some servedBypass := by
  obtain ⟨state, past, run, check⟩ : ∃ state past,
      (machine Service.narrow beamJson).Run Machine.Every (new []) beamCrashed past state ∧
      decide (state.service.isNone = true ∧
        state.topic = [alarmToMessage beamJson beam servedBypass] ∧
        appendedOf beam past = [servedBypass] ∧
        .service 1 (.submitted 0 [beam] (.bypass none) "operator") ∈ past ∧
        .service 1 (.responded 0 (.ok ())) ∈ past) = true :=
    @Machine.run_of_check _ _ _ _ _ (fun _ _ => true) (fun _ _ _ _ => trivial) _ _ _ (by decide)
  obtain ⟨down, topic, appended, submitted, responded⟩ := of_decide_eq_true check
  have record : alarmToMessage beamJson beam servedBypass = bypassRecord beam.toText := by
    simp [alarmToMessage, bypassRecord, beamJson]
  have reduces :
      reduceSnapshot beamJson state.topic = FiniteMap.empty.insert beam servedBypass := by
    rw [topic, record]
    exact reduceSnapshot_bypassRecord rfl rfl
  have order :
      [(beam, servedBypass)].isPerm (reduceSnapshot beamJson state.topic).entries = true := by
    rw [reduces]
    exact List.isPerm_iff.mpr (.refl _)
  have starts : [(beam, servedBypass)].foldlM
      (FiniteMap.insertNew HydrationError.keyInMultipleSources) (loadAcnetHydration []) =
        .ok (FiniteMap.empty.insert beam servedBypass) := rfl
  have fires : (machine Service.narrow beamJson).step state (.boot [] [(beam, servedBypass)]) =
      some ({ state with
        service := some (.start (FiniteMap.empty.insert beam servedBypass))
        incarnation := state.incarnation + 1 }, [.booted]) := by
    simp only [machine, step, down, order, starts]
    rfl
  have kept : appendedOf beam (past ++ [.booted]) = [servedBypass] := by
    rw [appendedOf_append, appended]
    rfl
  have recodes : ∀ status ∈ appendedOf beam (past ++ [.booted]), beamJson.Recodes status := by
    intro status member
    rw [kept] at member
    obtain rfl := List.mem_singleton.mp member
    exact servedBypass_recodes
  obtain ⟨channels, requested, each⟩ := bypasses_survive (run.snoc trivial fires)
    (List.mem_append_left _ submitted) (List.mem_append_left _ responded)
  obtain ⟨channel, paired⟩ : ∃ channel, (beam, channel) ∈ [beam].zip channels := by
    cases requested.offered with
    | @cons _ channel => exact ⟨channel, List.mem_cons_self⟩
  obtain ⟨before, after, job, landed, ends, confirmed⟩ := each beam channel paired rfl recodes
  -- The only record of the beam is the bypass.
  have whole := landed.appended
  rw [kept] at whole
  obtain ⟨same, nothing⟩ : servedBypass = job.status ∧ appendedOf beam after = [] := by
    cases older : appendedOf beam before with
    | nil =>
        rw [older] at whole
        obtain ⟨same, rest⟩ := List.cons.inj whole
        exact ⟨same, rest.symm⟩
    | cons first rest =>
        rw [older, List.cons_append] at whole
        have empty := (List.cons.inj whole).2
        simp at empty
  have held := confirmed _ rfl nothing
  rw [← same, nothing] at ends
  rw [← same] at held
  exact ⟨_, _, _, before, after, job, run.snoc trivial fires, landed.placed, landed.asked,
    landed.told, same.symm, ends, rfl, held⟩

end Deployment

end

end AcornAlarms
