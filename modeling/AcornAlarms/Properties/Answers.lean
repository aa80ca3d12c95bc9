import AcornAlarms.Library.Occurrence
import AcornAlarms.Runtime.Calls

/-!
# Responses

The response of a request that waited says of each device what became of the update the request
offered for it, on a channel of its own: its status was published, its transition was refused in
the state the alarm had, or nothing of it was ever published.
-/

namespace AcornAlarms

open Library

section

variable [Platform]

/-- A confirmation answered in a run is one of an admitted update, and its answer is true. -/
theorem Pipeline.answered_truly {admits : List Event → Pipeline → Action → Prop}
    {hydratedStatuses : FiniteMap Key Status} {actions : List Action} {events : List Event}
    {final : Pipeline} (run : machine.Run admits (start hydratedStatuses) actions events final) :
    ∃ lanes, Truthful events lanes ∧ Settled events := by
  obtain ⟨lanes, _, truthful, _, _, settled⟩ := (Refines.initial hydratedStatuses).history run.forget
    (fun past lanes => Truthful past lanes ∧
      Ledger hydratedStatuses past lanes.desk lanes.underway ∧ lanes.Chronicle past ∧ Settled past)
    ⟨Truthful.start hydratedStatuses, Ledger.start hydratedStatuses, fun _ => .idle,
      fun _ _ _ _ member => absurd member List.not_mem_nil⟩
    (by
      rintro past lanes out next ⟨truthful, ledger, chronicle, settled⟩ step
      exact ⟨truthful.step step ledger chronicle, step.ledger ledger, step.chronicle chronicle,
        step.settled ledger settled⟩)
  exact ⟨lanes, truthful, settled⟩

namespace Service

variable {config : QueueCapacityConfig} {hydratedStatuses : FiniteMap Key Status}
  {admits : List Event → Service → Action → Prop} {actions : List Action} {events : List Event}
  {self : Service} {request : Nat} {taken : UserAction} {user : String} {key : Key}

/-- The history of the tasks. -/
def tasks (events : List Event) : List AcornAlarms.Event := events.filterMap Event.runtime?

@[simp] theorem mem_tasks {event : AcornAlarms.Event} :
    event ∈ tasks events ↔ .runtime event ∈ events := by
  simp only [tasks, List.mem_filterMap]
  constructor
  · rintro ⟨other, member, same⟩
    cases other <;> cases same
    exact member
  · intro member
    exact ⟨_, member, rfl⟩

/-- The tasks of the service run as the pipeline does. -/
theorem tasks_from {state final : Service}
    (run : (machine config).Run admits state actions events final) :
    ∃ turns, Pipeline.machine.Run Machine.Every state.runtime.flatten turns (tasks events)
      final.runtime.flatten := by
  have same : (pipelinePart config).report = Event.runtime? := by
    funext event
    exact Option.bind_fun_some _
  obtain ⟨turns, runs⟩ := (pipelinePart config).run_every run
  rw [same] at runs
  exact ⟨turns, runs⟩

theorem tasks_run
    (run : (machine config).Run admits (start hydratedStatuses) actions events self) :
    ∃ turns, Pipeline.machine.Run Machine.Every (.start hydratedStatuses) turns (tasks events)
      self.runtime.flatten :=
  tasks_from run

/-- The update that was received on a channel is the one that was offered on it. -/
theorem received_offered
    (run : (machine config).Run admits (start hydratedStatuses) actions events self)
    {channel : Confirmation} {owner : Option Nat} {input : DomainInput}
    (received : .users (.received ⟨owner, input⟩) ∈ events) (names : input.channel? = some channel)
    (offered : Offered events request taken user key channel) :
    input = .userUpdate key taken user channel := by
  obtain ⟨turns, users⟩ := (usersPart config).run_every run
  have enqueued := (UserIngress.intake users).taken _ (mem_users.mpr received)
  have same := (UserIngress.numbered users).unique enqueued (mem_users.mpr offered) names
  exact congrArg UserMessage.input same

/-- The job of the update that was offered for a device on a channel. -/
structure JobOf (past : List Event) (taken : UserAction) (user : String) (key : Key)
    (channel : Confirmation) (job : Job) : Prop where
  named : job.key = key
  built : ∃ now, job.status = buildUserStatus key taken user now
  admitted : .admitted job.id key job.status channel ∈ tasks past

theorem JobOf.mono {past later : List Event} {channel : Confirmation} {job : Job}
    (owns : JobOf past taken user key channel job) (within : past ⊆ later) :
    JobOf later taken user key channel job where
  named := owns.named
  built := owns.built
  admitted := mem_tasks.mpr (within (mem_tasks.mp owns.admitted))

/-- The coordinator refused an update in a state of the run: the latest status of the device in
that state is the one the error names, and the policy does not allow the action in it. -/
def Refused (config : QueueCapacityConfig) (hydratedStatuses : FiniteMap Key Status)
    (final : Service) (events : List Event) (taken : UserAction) (user : String) (key : Key)
    (channel : Confirmation) (transition : StateTransition) : Prop :=
  ∃ state next before out after now owner,
    (∃ earlier, (machine config).Run Machine.Every (start hydratedStatuses) earlier before state) ∧
    state.step config (.takeUser now) = some (next, out) ∧
    (∃ later, (machine config).Run Machine.Every next later after final) ∧
    events = before ++ out ++ after ∧
    .users (.received ⟨owner, .userUpdate key taken user channel⟩) ∈ out ∧
    .runtime (.refused channel (.stateNotAllowed transition)) ∈ out ∧
    state.runtime.tasks.coordinator.allows key taken = false ∧
    transition =
      { key
        current := ((state.runtime.tasks.coordinator.getLatestStatus key).map
          fun status => status.state.value).getD .unknown
        requested := taken.asState }

/-- What an answer says of the update that was offered for a device on a channel. -/
def Tells (config : QueueCapacityConfig) (hydratedStatuses : FiniteMap Key Status)
    (final : Service) (events : List Event) (taken : UserAction) (user : String)
    (update : Key × Confirmation) : Except UpdateError Unit → Prop
  | .ok () => ∃ job, JobOf events taken user update.1 update.2 job ∧
      .resolved job.id update.1 update.2 (.ok ()) ∈ tasks events ∧
      Happened (tasks events) job (.answered update.1 job.status.wake true) ∧
      Happened (tasks events) job (.published update.1 job.status true)
  | .error (.internal lost) => lost = update.1 ∧
      ∃ job, JobOf events taken user update.1 update.2 job ∧
        .resolved job.id update.1 update.2 (.error (.internal lost)) ∈ tasks events ∧
        ∀ other status, other.id = job.id →
          ¬ Happened (tasks events) other (.published other.key status true)
  | .error (.stateNotAllowed transition) =>
      Refused config hydratedStatuses final events taken user update.1 update.2 transition

/-- The channel of an admitted update is that of the update that was offered on it. -/
theorem job_of_admitted
    (run : (machine config).Run admits (start hydratedStatuses) actions events self)
    {channel : Confirmation} (offered : Offered events request taken user key channel) {job : Job}
    {other : Key} (admitted : .admitted job.id other job.status channel ∈ tasks events)
    (named : job.key = other) : other = key ∧ JobOf events taken user key channel job := by
  obtain ⟨owner, asked, name, now, received, built⟩ := (dealt run).traced (mem_tasks.mp admitted)
  cases received_offered run received rfl offered
  exact ⟨rfl, named, ⟨now, built⟩, admitted⟩

/-- A step that refuses an update takes it, in a state whose latest status does not allow it. -/
theorem step_refuses {action : Action} {next : Service} {out : List Event}
    {channel : Confirmation} {error : UpdateError}
    (fires : self.step config action = some (next, out))
    (member : .runtime (.refused channel error) ∈ out) :
    ∃ owner key taken user now, action = .takeUser now ∧
      .users (.received ⟨owner, .userUpdate key taken user channel⟩) ∈ out ∧
      self.runtime.tasks.coordinator.allows key taken = false ∧
      error = .stateNotAllowed
        { key
          current := ((self.runtime.tasks.coordinator.getLatestStatus key).map
            fun status => status.state.value).getD .unknown
          requested := taken.asState } := by
  have turned : ∀ {move runtime events}, self.runtime.step config move = some (runtime, events) →
      .refused channel error ∈ events →
      ∃ key taken user now, move = .turn (.input (.userUpdate key taken user channel) now) ∧
        self.runtime.tasks.coordinator.allows key taken = false ∧ error = .stateNotAllowed
          { key
            current := ((self.runtime.tasks.coordinator.getLatestStatus key).map
              fun status => status.state.value).getD .unknown
            requested := taken.asState } := by
    intro move runtime events moves inside
    obtain ⟨turn, rfl, turns⟩ | ⟨_, _, rfl⟩ := Runtime.flatten_step moves
    · obtain ⟨key, taken, user, now, rfl, refuses⟩ := Pipeline.step_refuses turns inside
      exact ⟨key, taken, user, now, rfl, refuses⟩
    · cases inside
  cases step_cases fires with
  | @takeUser now message rest runtime events alive queue turns =>
      obtain ⟨key, taken, user, _, same, refuses⟩ := turned turns (by simpa using member)
      obtain ⟨owner, input⟩ := message
      cases same
      exact ⟨owner, key, taken, user, now, rfl, List.mem_cons_self, refuses⟩
  | takeAutomated queue turns =>
      obtain ⟨_, _, _, _, same, _⟩ := turned turns (by simpa using member)
      cases same
  | turn inner turns =>
      obtain ⟨_, _, _, _, same, _⟩ := turned turns (by simpa using member)
      cases same
      cases inner
  | accept accepts =>
      obtain ⟨_, _, _, _, same, _⟩ := turned accepts (by simpa using member)
      cases same
  | getSnapshot =>
      rw [Service.getSnapshot] at member
      simp only at member
      split at member <;> simp at member
  | _ => simp at member

/-- An update that was refused was refused in the state that took it. -/
theorem refused_of_mem
    (run : (machine config).Run admits (start hydratedStatuses) actions events self)
    {channel : Confirmation} (offered : Offered events request taken user key channel)
    {error : UpdateError} (refused : .runtime (.refused channel error) ∈ events) :
    ∃ transition, error = .stateNotAllowed transition ∧
      Refused config hydratedStatuses self events taken user key channel transition := by
  obtain ⟨before, after, split⟩ := List.append_of_mem refused
  obtain ⟨state, next, action, past, early, late, rest, occurs⟩ := run.occurs split
  obtain ⟨_, prior⟩ := occurs.prior
  have member : .runtime (.refused channel error) ∈
      early ++ .runtime (.refused channel error) :: late := by simp
  have history : events = past ++ (early ++ .runtime (.refused channel error) :: late) ++ rest := by
    rw [split, occurs.before_eq, occurs.after_eq]
    simp
  obtain ⟨owner, other, asked, name, now, rfl, received, forbidden, rfl⟩ :=
    step_refuses occurs.fires member
  have taken : .users (.received ⟨owner, .userUpdate other asked name channel⟩) ∈ events := by
    rw [history]
    exact List.mem_append_left _ (List.mem_append_right _ received)
  cases received_offered run taken rfl offered
  exact ⟨_, rfl, state, next, past, _, rest, now, owner, ⟨_, prior.forget⟩, occurs.fires,
    occurs.later, history, received, member, forbidden, rfl⟩

/-- What was sent on the channel of an update is true. -/
theorem Sent.tells
    (run : (machine config).Run admits (start hydratedStatuses) actions events self)
    {channel : Confirmation} {answer : Except UpdateError Unit}
    (offered : Offered events request taken user key channel) (sent : Sent events channel answer) :
    Tells config hydratedStatuses self events taken user (key, channel) answer := by
  obtain ⟨error, rfl, refused⟩ | ⟨id, named, resolved⟩ := sent
  · obtain ⟨transition, rfl, taken⟩ := refused_of_mem run offered refused
    exact taken
  · obtain ⟨turns, runs⟩ := tasks_run run
    obtain ⟨lanes, truthful, settled⟩ := Pipeline.answered_truly runs
    have resolved := mem_tasks.mpr resolved
    cases answer with
    | ok =>
        obtain ⟨before, after, split⟩ := List.append_of_mem resolved
        obtain ⟨job, rfl, sameKey, owed, accepted, published⟩ := truthful.kept split
        have entered : .admitted job.id named job.status channel ∈ tasks events := by
          rw [split]
          exact List.mem_append_left _ owed
        obtain ⟨rfl, carries⟩ := job_of_admitted run offered entered sameKey
        refine ⟨job, carries, resolved, ?_, ?_⟩
        · rw [split]
          exact accepted.append _
        · rw [split]
          exact published.append _
    | error error =>
        obtain ⟨rfl, _, unpublished⟩ := truthful.failed resolved
        obtain ⟨status, admitted⟩ := settled id named channel _ resolved
        have entered : .admitted (Job.mk id named status true).id named
            (Job.mk id named status true).status channel ∈ tasks events := admitted
        obtain ⟨rfl, carries⟩ := job_of_admitted run offered entered rfl
        exact ⟨rfl, _, carries, resolved, unpublished⟩

/-- A response is what the answers on the channels of the request make of it, and these are true
of its own updates: one confirmed was published as built for the device, one refused was not
allowed in the state the alarm had, and of one that failed nothing is ever published. -/
theorem responses_truthful {response : Except TonicStatus Unit}
    (run : (machine config).Run admits (start hydratedStatuses) actions events self)
    (responded : .responded request response ∈ events) :
    ∃ keys taken user channels answers, Requested events request keys taken user channels ∧
      List.Forall₂ (Tells config hydratedStatuses self events taken user) (keys.zip channels)
        answers ∧
      response = handleConfirmation (keys.zip (answers.map some)) ∧
      (response = .ok () ↔ ∀ answer ∈ answers, answer = .ok ()) := by
  obtain ⟨keys, taken, user, channels, answers, requested, sent, rfl⟩ :=
    (dealt run).responses responded
  refine ⟨keys, taken, user, channels, answers, requested, ?_, rfl, ?_⟩
  · obtain ⟨lengths, offered⟩ := List.forall₂_iff_get.mp requested.offered
    obtain ⟨counts, sent⟩ := List.forall₂_iff_get.mp sent
    refine List.forall₂_iff_get.mpr ⟨by simp [lengths, counts], ?_⟩
    intro index first second
    rw [List.length_zip] at first
    have told := (sent index (by omega) second).tells run (offered index (by omega) (by omega))
    simpa using told
  · rw [handleConfirmation_ok]
    have unzipped : (keys.zip (answers.map some)).map Prod.snd = answers.map some := by
      refine List.map_snd_zip (Nat.le_of_eq ?_)
      rw [List.length_map, requested.offered.length_eq, sent.length_eq]
    constructor
    · intro each answer member
      have inside := List.mem_map_of_mem (f := some) member
      rw [← unzipped] at inside
      obtain ⟨entry, inside, same⟩ := List.mem_map.mp inside
      exact Option.some.inj (same.symm.trans (each entry inside))
    · intro each entry inside
      have member : entry.2 ∈ answers.map some := by
        rw [← unzipped]
        exact List.mem_map_of_mem inside
      obtain ⟨answer, member, same⟩ := List.mem_map.mp member
      rw [← same, each answer member]

/-- Whether an event ends a request: it is rejected or answered. -/
def Event.ends (request : Nat) : Event → Bool
  | .users (.rejected number _) => number = request
  | .responded number _ => number = request
  | _ => false

/-- Whether a request waits for its answers or is still being submitted. -/
def waits (self : Service) (request : Nat) : Nat :=
  if (self.calls.get? request).isSome then 1 else 0

/-- A request that arrived waits or has ended, and not both. -/
structure Counted (past : List Event) (reached : Service) : Prop where
  within : ∀ {request submission}, reached.users.submissions.get? request = some submission →
    (reached.calls.get? request).isSome = true
  balance : ∀ request, past.countP (Event.ends request) + reached.waits request =
    if request < reached.users.requests then 1 else 0

namespace Counted

variable {past out : List Event} {next : Service}

/-- A step that ends no request and starts none. -/
theorem still (counted : Counted past self) (calls : next.calls = self.calls)
    (submissions : next.users.submissions = self.users.submissions)
    (requests : next.users.requests = self.users.requests)
    (silent : ∀ request, out.countP (Event.ends request) = 0) : Counted (past ++ out) next where
  within := by
    intro request submission found
    rw [submissions] at found
    rw [calls]
    exact counted.within found
  balance := by
    intro request
    have before := counted.balance request
    rw [List.countP_append, silent, waits, calls, requests]
    exact before

theorem submit (counted : Counted past self) (dealt : Dealt past self) {devices : List String}
    {keys : List Key} (parsed : buildKeys devices = .ok keys) :
    Counted (past ++ .submitted self.users.requests keys taken user ::
        (self.users.submit devices taken user).2.map .users)
      { self with
        users := (self.users.submit devices taken user).1
        calls := self.calls.insert self.users.requests ⟨keys, []⟩ } := by
  obtain ⟨uncalled, _⟩ := dealt.fresh
  have silent : ∀ request, (.submitted self.users.requests keys taken user ::
      (self.users.submit devices taken user).2.map Event.users).countP (Event.ends request) = 0 := by
    intro request
    rw [UserIngress.submit_ok parsed]
    split <;> simp [Event.ends]
  constructor
  · intro request submission found
    simp only [FiniteMap.get?_insert]
    split
    · rfl
    · next other =>
        rw [UserIngress.submit_ok parsed] at found
        split at found
        · exact counted.within found
        · rw [FiniteMap.get?_insert_of_ne _ _ other] at found
          exact counted.within found
  · intro request
    have before := counted.balance request
    have requests : (self.users.submit devices taken user).1.requests =
        self.users.requests + 1 := by
      rw [UserIngress.submit_ok parsed]
      split <;> rfl
    rw [List.countP_append, silent]
    simp only [waits, FiniteMap.get?_insert, requests] at before ⊢
    by_cases same : request = self.users.requests
    · subst same
      simp only [uncalled, Option.isSome_none] at before
      simp at before ⊢
      omega
    · rw [if_neg same]
      rw [Nat.add_zero, before]
      by_cases below : request < self.users.requests
      · rw [if_pos below, if_pos (by omega)]
      · rw [if_neg below, if_neg (by omega)]

/-- A request that ends waits no more. -/
theorem ended (counted : Counted past self) {request : Nat}
    (opened : (self.calls.get? request).isSome = true) {last : Event}
    (ends : ∀ other, last.ends other = decide (request = other))
    (calls : next.calls = self.calls.erase request)
    (submissions : ∀ {other submission}, next.users.submissions.get? other = some submission →
      other ≠ request ∧ self.users.submissions.get? other = some submission)
    (requests : next.users.requests = self.users.requests) : Counted (past ++ [last]) next where
  within := by
    intro other submission found
    obtain ⟨apart, before⟩ := submissions found
    rw [calls, FiniteMap.get?_erase_of_ne _ apart]
    exact counted.within before
  balance := by
    intro other
    have before := counted.balance other
    rw [List.countP_append, List.countP_singleton, ends, requests, ← before, waits, waits, calls,
      FiniteMap.get?_erase]
    by_cases same : other = request
    · simp [same, opened]
    · simp [same, Ne.symm same]

theorem trySend (counted : Counted past self) {users : UserIngress} {request : Nat}
    {events : List UserIngress.Event}
    (steps : self.users.submitUpdate config.user request = some (users, events)) :
    Counted (past ++ events.map .users)
      { self with users, calls := events.foldl note self.calls } := by
  obtain ⟨key, rest, taken, user, found, ⟨status, rfl, rfl⟩ | ⟨rfl, rfl⟩⟩ :=
    UserIngress.submitUpdate_cases steps
  · refine counted.ended (counted.within found) (fun _ => rfl) rfl ?_ rfl
    intro other submission left
    simp only [FiniteMap.get?_erase] at left
    split at left
    · cases left
    · next apart => exact ⟨apart, left⟩
  · -- Offering an update keeps the request waiting.
    have kept : ∀ other, ((List.foldl note self.calls
        (.enqueued ⟨some request, .userUpdate key taken user self.users.confirmations⟩ ::
          if rest = [] then [.awaiting request] else [])).get? other).isSome =
        (self.calls.get? other).isSome := by
      intro other
      have told : List.foldl note self.calls
          (.enqueued ⟨some request, .userUpdate key taken user self.users.confirmations⟩ ::
            if rest = [] then [.awaiting request] else []) =
          note self.calls
            (.enqueued ⟨some request, .userUpdate key taken user self.users.confirmations⟩) := by
        split <;> rfl
      rw [told, note]
      cases present : self.calls.get? request with
      | none => rfl
      | some call =>
          simp only [FiniteMap.get?_insert]
          split
          · next same => rw [same, present]; rfl
          · rfl
    constructor
    · intro other submission left
      simp only [kept]
      rw [UserIngress.get?_rest] at left
      split at left
      · next same =>
          rw [same]
          exact counted.within found
      · exact counted.within left
    · intro other
      have before := counted.balance other
      have silent : (List.map Event.users
          (.enqueued ⟨some request, .userUpdate key taken user self.users.confirmations⟩ ::
            if rest = [] then [.awaiting request] else [])).countP (Event.ends other) = 0 := by
        split <;> simp [Event.ends]
      rw [List.countP_append, silent]
      simp only [waits, kept]
      exact before

theorem step (counted : Counted past self) (dealt : Dealt past self) {action : Action}
    (fires : self.step config action = some (next, out)) : Counted (past ++ out) next := by
  cases step_cases fires with
  | skip | respondSnapshot | abandonSnapshot | decline =>
      exact counted.still rfl rfl rfl (by simp [Event.ends])
  | call forwards steps | ingress internal steps =>
      refine counted.still rfl rfl rfl fun request => ?_
      simp [List.countP_map, Function.comp_def, Event.ends]
  | reject updates wrong =>
      obtain ⟨uncalled, _⟩ := dealt.fresh
      rw [UserIngress.submit_error wrong]
      constructor
      · exact counted.within
      · intro request
        have before := counted.balance request
        rw [List.countP_append, List.map_singleton, List.countP_singleton]
        simp only [waits, Event.ends, decide_eq_true_eq] at before ⊢
        by_cases same : self.users.requests = request
        · subst same
          simp [uncalled] at before ⊢
          omega
        · rw [if_neg same, Nat.add_zero, before]
          by_cases below : request < self.users.requests
          · rw [if_pos below, if_pos (by omega)]
          · rw [if_neg below, if_neg (by omega)]
  | submit updates parsed => exact counted.submit dealt parsed
  | trySend steps => exact counted.trySend steps
  | getSnapshot =>
      rw [Service.getSnapshot]
      rcases UserIngress.trySend_cases
          { self.users with confirmations := self.users.confirmations + 1 } config.user
          ⟨none, .snapshotRequest self.users.confirmations⟩ with ⟨error, fails⟩ | ⟨alive, sends⟩
      · simp only [fails]
        exact counted.still rfl rfl rfl (by simp [Event.ends])
      · simp only [sends]
        exact counted.still rfl rfl rfl (by simp [Event.ends])
  | takeUser | takeAutomated | turn | accept =>
      refine counted.still rfl rfl rfl fun request => ?_
      simp [List.countP_map, Function.comp_def, Event.ends]
  | dropReceivers stopped => exact counted.still rfl rfl rfl (by simp)
  | respond offered waits complete =>
      refine counted.ended (by rw [waits]; rfl) (fun _ => rfl) rfl ?_ rfl
      intro other submission left
      refine ⟨?_, left⟩
      rintro rfl
      rw [offered] at left
      cases left

end Counted

/-- In every run each request that arrived is in one place: it waits, or it was rejected or
answered once. -/
theorem requests_answered_once
    (run : (machine config).Run admits (start hydratedStatuses) actions events self)
    (request : Nat) :
    events.countP (Event.ends request) + self.waits request =
      if request < self.users.requests then 1 else 0 := by
  have counted : Counted events self := by
    induction run with
    | refl => exact ⟨by simp [start, UserIngress.new], by simp [start, UserIngress.new, waits]⟩
    | snoc prior _ fires ih => exact ih.step (dealt prior) fires
  exact counted.balance request

end Service

end

section

attribute [local instance] asciiPlatform

namespace Service

/-- One message fits in each channel. -/
def narrow : QueueCapacityConfig := ⟨1, 1, 1, 1, 1⟩

/-- The steps that bring the only job under way to the engine. -/
def carry : List Action :=
  [.accept .coordinator, .turn .job, .accept .handler, .turn (.snoozeInput ⟨0, 0⟩),
   .accept .scheduler, .turn .snoozeOutcome, .accept .handler, .turn .publish]

/-- The steps that bring the result of its only attempt back. -/
def deliver : List Action :=
  [.turn (.completion 0 true), .accept .engine, .turn .publishOutcome, .accept .handler,
   .turn (.jobOutcome 0)]

/-- An operator bypasses the pump and is answered. -/
def bypassAnswered : List Action :=
  [.request (.bypass ["PUMP#Analog"] "operator"), .trySend 0, .takeUser 0] ++ carry ++ deliver ++
    [.respond 0]

/-- The response says that the bypass was published. -/
theorem responses_truthful_bypass : ∃ final events keys taken user channels answers,
    (machine narrow).Run Machine.Every (start .empty) bypassAnswered events final ∧
      Requested events 0 keys taken user channels ∧
      List.Forall₂ (Tells narrow .empty final events taken user) (keys.zip channels) answers ∧
      ∀ answer ∈ answers, answer = .ok () := by
  obtain ⟨final, events, run, check⟩ := run_of_check narrow bypassAnswered
    (fun _ events => decide (.responded 0 (.ok ()) ∈ events)) (by decide)
  rw [decide_eq_true_eq] at check
  obtain ⟨keys, taken, user, channels, answers, requested, tells, _, ok⟩ :=
    responses_truthful run check
  exact ⟨final, events, keys, taken, user, channels, answers, run, requested, tells, ok.mp rfl⟩

/-- The bypass was answered and waits no more. -/
theorem requests_answered_once_bypass : ∃ final events,
    (machine narrow).Run Machine.Every (start .empty) bypassAnswered events final ∧
      events.countP (Event.ends 0) = 1 := by
  obtain ⟨final, events, run, check⟩ := run_of_check narrow bypassAnswered
    (fun final _ => decide (final.waits 0 = 0 ∧ 0 < final.users.requests)) (by decide)
  obtain ⟨ended, arrived⟩ := of_decide_eq_true check
  have balance := requests_answered_once run 0
  rw [ended, if_pos arrived] at balance
  exact ⟨final, events, run, balance⟩

end Service

end

end AcornAlarms
