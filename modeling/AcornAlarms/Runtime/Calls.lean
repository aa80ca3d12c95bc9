import AcornAlarms.Lanes.Origins
import AcornAlarms.Properties.Requests
import AcornAlarms.Runtime.Service

/-!
# Calls and their channels

Every update a request offers has a one-shot channel of its own. `Dealt` says what a history
of the service knows of the calls that wait: which channel is for which device, and what was
sent on it.
-/

namespace AcornAlarms

open Library

section

variable [Platform]

/-- The one-shot channel of a message, if it has one. -/
def DomainInput.channel? : DomainInput → Option Nat
  | .snapshotRequest sender => some sender
  | .automatedUpdate _ => none
  | .userUpdate _ _ _ confirmation => some confirmation

namespace UserIngress

variable {self next : UserIngress} {capacity request : Nat} {events out : List Event}
  {action : Action} {message : UserMessage} {devices : List String} {taken : UserAction}
  {user : String} {status : TonicStatus} {keys : List Key}

theorem submit_error (wrong : buildKeys devices = .error status) :
    self.submit devices taken user =
      ({ self with requests := self.requests + 1 }, [.rejected self.requests status]) := by
  simp [submit, wrong]

/-- A request without devices is not submitted further. -/
theorem submit_ok (parsed : buildKeys devices = .ok keys) :
    self.submit devices taken user =
      if keys = [] then ({ self with requests := self.requests + 1 }, [.awaiting self.requests])
      else ({ self with
        requests := self.requests + 1
        submissions := self.submissions.insert self.requests ⟨keys, taken, user⟩ }, []) := by
  cases keys <;> simp [submit, parsed]

/-- What is left of a submission that offered its first update. -/
def rest (self : UserIngress) (request : Nat) (submission : Submission) : FiniteMap Nat Submission :=
  if submission.keys = [] then self.submissions.erase request
  else self.submissions.insert request submission

theorem get?_rest (self : UserIngress) (request other : Nat) (submission : Submission) :
    (self.rest request submission).get? other =
      if other = request then if submission.keys = [] then none else some submission
      else self.submissions.get? other := by
  unfold rest
  split
  · rw [FiniteMap.get?_erase]
  · rw [FiniteMap.get?_insert]

/-- A request offers its next update on a new channel, or ends. -/
theorem submitUpdate_cases (fires : self.submitUpdate capacity request = some (next, out)) :
    ∃ key keys taken user, self.submissions.get? request = some ⟨key :: keys, taken, user⟩ ∧
      ((∃ status, out = [.rejected request status] ∧
        next = { self with
          confirmations := self.confirmations + 1
          submissions := self.submissions.erase request }) ∨
      (out = .enqueued ⟨some request, .userUpdate key taken user self.confirmations⟩ ::
          (if keys = [] then [.awaiting request] else []) ∧
        next = { self with
          queue := self.queue ++ [⟨some request, .userUpdate key taken user self.confirmations⟩]
          confirmations := self.confirmations + 1
          submissions := self.rest request ⟨keys, taken, user⟩ })) := by
  simp only [submitUpdate] at fires
  split at fires
  · next key keys taken user found =>
      refine ⟨key, keys, taken, user, found, ?_⟩
      rcases trySend_cases { self with confirmations := self.confirmations + 1 } capacity
          ⟨some request, .userUpdate key taken user self.confirmations⟩ with
        ⟨error, fails⟩ | ⟨_, sends⟩
      · rw [fails] at fires
        cases fires
        exact .inl ⟨_, rfl, rfl⟩
      · rw [sends] at fires
        simp only at fires
        split at fires
        · next last =>
            cases fires
            exact .inr ⟨by simp [last], by simp [rest, last]⟩
        · next more =>
            cases fires
            exact .inr ⟨by simp [more], by simp [rest, more]⟩
  · cases fires

/-- The channels of the messages offered so far are distinct and below the next one. -/
structure Numbered (events : List Event) (reached : UserIngress) : Prop where
  fresh : ∀ {message}, .enqueued message ∈ events →
    ∃ channel < reached.confirmations, message.input.channel? = some channel
  unique : ∀ {message other}, .enqueued message ∈ events → .enqueued other ∈ events →
    message.input.channel? = other.input.channel? → message = other

/-- A step offers at most one message, on the next channel. -/
theorem step_offers (fires : self.step capacity action = some (next, out)) :
    self.confirmations ≤ next.confirmations ∧
      ∀ message, .enqueued message ∈ out → message.input.channel? = some self.confirmations ∧
        next.confirmations = self.confirmations + 1 ∧
        ∀ other, .enqueued other ∈ out → other = message := by
  cases action with
  | submit devices taken user =>
      simp only [step, submit, Option.some.injEq] at fires
      split at fires <;> cases fires <;> simp
  | trySend request =>
      obtain ⟨key, keys, taken, user, _, ⟨status, rfl, rfl⟩ | ⟨rfl, rfl⟩⟩ :=
        submitUpdate_cases fires
      · simp
      · refine ⟨Nat.le_succ _, ?_⟩
        intro message member
        have only : ∀ other, .enqueued other ∈
            (.enqueued ⟨some request, .userUpdate key taken user self.confirmations⟩ ::
              if keys = [] then [.awaiting request] else [] : List Event) →
            other = ⟨some request, .userUpdate key taken user self.confirmations⟩ := by
          intro other inside
          split at inside <;> simpa using inside
        obtain rfl := only message member
        exact ⟨rfl, rfl, only⟩
  | requestSnapshot =>
      simp only [step] at fires
      rcases trySend_cases { self with confirmations := self.confirmations + 1 } capacity
          ⟨none, .snapshotRequest self.confirmations⟩ with ⟨error, fails⟩ | ⟨_, sends⟩
      · rw [fails] at fires
        cases fires
        simp
      · rw [sends] at fires
        cases fires
        simp [DomainInput.channel?]
  | receive =>
      simp only [step, Option.ite_none_right_eq_some] at fires
      obtain ⟨_, taken⟩ := fires
      split at taken
      · cases taken
        simp
      · cases taken
  | dropReceiver =>
      cases fires
      simp

theorem Numbered.step (numbered : Numbered events self)
    (fires : self.step capacity action = some (next, out)) : Numbered (events ++ out) next := by
  obtain ⟨later, offers⟩ := step_offers fires
  -- A new message has a channel that no old one has.
  have apart : ∀ {message other}, .enqueued message ∈ events → .enqueued other ∈ out →
      message.input.channel? ≠ other.input.channel? := by
    intro message other early late same
    obtain ⟨channel, below, given⟩ := numbered.fresh early
    rw [given, (offers other late).1, Option.some.injEq] at same
    omega
  constructor
  · intro message member
    rcases List.mem_append.mp member with early | late
    · obtain ⟨channel, below, given⟩ := numbered.fresh early
      exact ⟨channel, by omega, given⟩
    · obtain ⟨given, counted, _⟩ := offers message late
      exact ⟨_, by omega, given⟩
  · intro message other first second same
    rcases List.mem_append.mp first with early | late
    · rcases List.mem_append.mp second with early' | late'
      · exact numbered.unique early early' same
      · exact absurd same (apart early late')
    · rcases List.mem_append.mp second with early' | late'
      · exact absurd same.symm (apart early' late)
      · exact ((offers message late).2.2 other late').symm

/-- The channels are distinct in every run. -/
theorem numbered {admits : List Event → UserIngress → Action → Prop} {actions : List Action}
    (run : (machine capacity).Run admits new actions events self) : Numbered events self :=
  run.history Numbered ⟨by simp, by simp⟩ fun before _ fires => before.step fires

end UserIngress

namespace Service

variable {config : QueueCapacityConfig} {self next : Service} {past out : List Event}
  {action : Action} {request : Nat} {taken : UserAction} {user : String} {keys : List Key}

theorem mem_users {event : UserIngress.Event} :
    event ∈ past.filterMap Event.users? ↔ .users event ∈ past := by
  rw [List.mem_filterMap]
  constructor
  · rintro ⟨other, member, same⟩
    cases other <;> cases same
    exact member
  · intro member
    exact ⟨_, member, rfl⟩

/-- A request offered the update of a device on a channel. -/
def Offered (past : List Event) (request : Nat) (taken : UserAction) (user : String) (key : Key)
    (channel : Confirmation) : Prop :=
  .users (.enqueued ⟨some request, .userUpdate key taken user channel⟩) ∈ past

/-- An answer was sent on a channel. -/
def Sent (past : List Event) (channel : Confirmation) (answer : Except UpdateError Unit) : Prop :=
  (∃ error, answer = .error error ∧ .runtime (.refused channel error) ∈ past) ∨
    ∃ id key, .runtime (.resolved id key channel answer) ∈ past

/-- A request and the channels of its updates, one for each device it named. -/
structure Requested (past : List Event) (request : Nat) (keys : List Key) (taken : UserAction)
    (user : String) (channels : List Confirmation) : Prop where
  submitted : .submitted request keys taken user ∈ past
  offered : List.Forall₂ (Offered past request taken user) keys channels
  distinct : channels.Nodup

/-- A response is what the handler makes of the answers sent on the channels of its request. -/
def Replied (past : List Event) (request : Nat) (response : Except TonicStatus Unit) : Prop :=
  ∃ keys taken user channels answers, Requested past request keys taken user channels ∧
    List.Forall₂ (Sent past) channels answers ∧
    response = handleConfirmation (keys.zip (answers.map some))

/-- An answer of the runtime is one to a message it received. -/
def Traced (past : List Event) : AcornAlarms.Event → Prop
  | .admitted _ key status confirmation => ∃ request taken user now,
      .users (.received ⟨request, .userUpdate key taken user confirmation⟩) ∈ past ∧
        status = buildUserStatus key taken user now
  | .refused confirmation error => ∃ request key taken user current wake,
      .users (.received ⟨request, .userUpdate key taken user confirmation⟩) ∈ past ∧
        userActionAllowed current wake taken = false ∧
        error = .stateNotAllowed { key, current, requested := taken.asState }
  | .snapshot sender _ =>
      ∃ request, .users (.received ⟨request, .snapshotRequest sender⟩) ∈ past
  | _ => True

theorem Sent.append {channel : Confirmation} {answer : Except UpdateError Unit}
    (sent : Sent past channel answer) (out : List Event) : Sent (past ++ out) channel answer := by
  rcases sent with ⟨error, same, refused⟩ | ⟨id, key, resolved⟩
  · exact .inl ⟨error, same, List.mem_append_left _ refused⟩
  · exact .inr ⟨id, key, List.mem_append_left _ resolved⟩

theorem Requested.append {channels : List Confirmation}
    (requested : Requested past request keys taken user channels) (out : List Event) :
    Requested (past ++ out) request keys taken user channels where
  submitted := List.mem_append_left _ requested.submitted
  offered := requested.offered.imp fun _ _ member => List.mem_append_left _ member
  distinct := requested.distinct

theorem Replied.append {response : Except TonicStatus Unit}
    (answered : Replied past request response) (out : List Event) :
    Replied (past ++ out) request response := by
  obtain ⟨keys, taken, user, channels, answers, requested, sent, given⟩ := answered
  exact ⟨keys, taken, user, channels, answers, requested.append out,
    sent.imp fun _ _ answer => answer.append out, given⟩

theorem Traced.append {event : AcornAlarms.Event} (traced : Traced past event) (out : List Event) :
    Traced (past ++ out) event := by
  cases event with
  | admitted id key status confirmation =>
      obtain ⟨request, taken, user, now, received, built⟩ := traced
      exact ⟨request, taken, user, now, List.mem_append_left _ received, built⟩
  | refused confirmation error =>
      obtain ⟨request, key, taken, user, current, wake, received, rest⟩ := traced
      exact ⟨request, key, taken, user, current, wake, List.mem_append_left _ received, rest⟩
  | snapshot sender statuses =>
      obtain ⟨request, received⟩ := traced
      exact ⟨request, List.mem_append_left _ received⟩
  | _ => trivial

/-- An answer that stems from a received message is traced to it. -/
theorem Traced.of_stems {message : UserMessage} {now : Int} {event : AcornAlarms.Event}
    (stems : event.Stems (.input message.input now)) (received : .users (.received message) ∈ past) :
    Traced past event := by
  obtain ⟨request, input⟩ := message
  cases event with
  | admitted id key status confirmation =>
      obtain ⟨taken, user, time, same, built⟩ := stems
      cases same
      exact ⟨request, taken, user, now, received, built⟩
  | refused confirmation error =>
      obtain ⟨key, taken, user, time, current, wake, same, rest⟩ := stems
      cases same
      exact ⟨request, key, taken, user, current, wake, received, rest⟩
  | snapshot sender statuses =>
      obtain ⟨time, same⟩ := stems
      cases same
      exact ⟨request, received⟩
  | _ => trivial

/-- A turn on no user message answers none. -/
theorem Traced.of_unasked {taken : AcornAlarms.Action} {event : AcornAlarms.Event}
    (stems : event.Stems taken) (unasked : ∀ message : DomainInput, message.channel?.isSome = true →
      ∀ now, taken ≠ .input message now) : Traced past event := by
  cases event with
  | admitted id key status confirmation =>
      obtain ⟨_, _, now, same, _⟩ := stems
      exact absurd same (unasked _ rfl now)
  | refused confirmation error =>
      obtain ⟨_, _, _, now, _, _, same, _⟩ := stems
      exact absurd same (unasked _ rfl now)
  | snapshot sender statuses =>
      obtain ⟨now, same⟩ := stems
      exact absurd same (unasked _ rfl now)
  | _ => trivial

/-- A call that waits: its channels are those of its first keys, and the others are left to be
submitted. -/
def Dealing (past : List Event) (submissions : FiniteMap Nat Submission) (request : Nat)
    (call : Call) : Prop :=
  ∃ taken user done, .submitted request call.keys taken user ∈ past ∧
    List.Forall₂ (Offered past request taken user) done call.results ∧ call.results.Nodup ∧
    match submissions.get? request with
    | none => call.keys = done
    | some submission => submission.action = taken ∧ submission.user = user ∧
        call.keys = done ++ submission.keys

theorem Dealing.append {submissions later : FiniteMap Nat Submission} {call : Call}
    (dealing : Dealing past submissions request call)
    (same : later.get? request = submissions.get? request) (out : List Event) :
    Dealing (past ++ out) later request call := by
  obtain ⟨taken, user, done, submitted, offered, distinct, left⟩ := dealing
  refine ⟨taken, user, done, List.mem_append_left _ submitted, ?_, distinct,
    by rw [same]; exact left⟩
  exact offered.imp fun _ _ member => List.mem_append_left _ member

/-- What a history knows of the calls of a service. -/
structure Dealt (past : List Event) (reached : Service) : Prop where
  running : ∃ lanes, Refines reached.runtime.flatten lanes
  alive : reached.users.receiverAlive = true
  numbered : ∀ {request call}, reached.calls.get? request = some call → request < reached.users.requests
  opened : ∀ {request submission}, reached.users.submissions.get? request = some submission →
    request < reached.users.requests
  calls : ∀ {request call}, reached.calls.get? request = some call →
    Dealing past reached.users.submissions request call
  answers : ∀ {channel answer}, reached.answers.get? channel = some answer →
    Sent past channel answer
  traced : ∀ {event}, .runtime event ∈ past → Traced past event
  responses : ∀ {request response}, .responded request response ∈ past →
    Replied past request response

/-- An answer in the map was there before or was sent by an event. -/
theorem get?_foldl_answer {channel : Confirmation} {given : Except UpdateError Unit}
    {events : List AcornAlarms.Event} {answers : FiniteMap Confirmation (Except UpdateError Unit)}
    (found : (events.foldl answer answers).get? channel = some given) :
    answers.get? channel = some given ∨
      (∃ error, given = .error error ∧ .refused channel error ∈ events) ∨
        ∃ id key, .resolved id key channel given ∈ events := by
  induction events generalizing answers with
  | nil => exact .inl found
  | cons event rest ih =>
      rcases ih found with earlier | ⟨error, same, refused⟩ | ⟨id, key, resolved⟩
      · cases event with
        | resolved id key confirmation sent =>
            rw [answer, FiniteMap.get?_insert] at earlier
            split at earlier
            · next same =>
                cases earlier
                exact .inr (.inr ⟨id, key, by rw [same]; exact List.mem_cons_self⟩)
            · exact .inl earlier
        | refused confirmation error =>
            rw [answer, FiniteMap.get?_insert] at earlier
            split at earlier
            · next same =>
                cases earlier
                exact .inr (.inl ⟨error, rfl, by rw [same]; exact List.mem_cons_self⟩)
            · exact .inl earlier
        | _ => exact .inl earlier
      · exact .inr (.inl ⟨error, same, List.mem_cons_of_mem _ refused⟩)
      · exact .inr (.inr ⟨id, key, List.mem_cons_of_mem _ resolved⟩)

/-- A step of the runtime keeps the tasks running, and its answers stem from its turn. -/
theorem runtime_step {runtime : Runtime} {events : List AcornAlarms.Event} {move : RuntimeAction}
    (running : ∃ lanes, Refines self.runtime.flatten lanes)
    (fires : self.runtime.step config move = some (runtime, events)) :
    (∃ lanes, Refines runtime.flatten lanes) ∧
      ∀ event ∈ events, ∃ taken, move = .turn taken ∧ event.Stems taken := by
  obtain ⟨lanes, refines⟩ := running
  rcases Runtime.flatten_step fires with ⟨taken, rfl, turns⟩ | ⟨_, same, rfl⟩
  · obtain ⟨after, _, kept⟩ := refines.step turns
    exact ⟨⟨after, kept⟩, fun event member => ⟨taken, rfl, Pipeline.step_stems turns event member⟩⟩
  · rw [same]
    exact ⟨⟨lanes, refines⟩, by simp⟩

namespace Dealt

theorem start (hydratedStatuses : FiniteMap Key Status) :
    Dealt [] (Service.start hydratedStatuses) where
  running := ⟨_, Refines.initial hydratedStatuses⟩
  alive := rfl
  numbered := by simp [Service.start]
  opened := by simp [Service.start, UserIngress.new]
  calls := by simp [Service.start]
  answers := by simp [Service.start]
  traced := by simp
  responses := by simp

/-- A step outside the runtime that answers no request. -/
theorem quiet (dealt : Dealt past self) (runtime : next.runtime = self.runtime)
    (answers : next.answers = self.answers)
    (alive : next.users.receiverAlive = self.users.receiverAlive)
    (numbered : ∀ {request call}, next.calls.get? request = some call →
      request < next.users.requests)
    (opened : ∀ {request submission}, next.users.submissions.get? request = some submission →
      request < next.users.requests)
    (calls : ∀ {request call}, next.calls.get? request = some call →
      Dealing (past ++ out) next.users.submissions request call)
    (silent : ∀ event, .runtime event ∉ out)
    (unanswered : ∀ request response, .responded request response ∉ out) :
    Dealt (past ++ out) next where
  running := by
    rw [runtime]
    exact dealt.running
  alive := by rw [alive, dealt.alive]
  numbered := numbered
  opened := opened
  calls := calls
  answers := by
    intro channel answer found
    rw [answers] at found
    exact (dealt.answers found).append out
  traced := by
    intro event member
    rcases List.mem_append.mp member with early | late
    · exact (dealt.traced early).append out
    · exact absurd late (silent event)
  responses := by
    intro request response member
    rcases List.mem_append.mp member with early | late
    · exact (dealt.responses early).append out
    · exact absurd late (unanswered request response)

/-- A step that leaves the calls and the submissions alone. -/
theorem still (dealt : Dealt past self) (runtime : next.runtime = self.runtime)
    (answers : next.answers = self.answers)
    (alive : next.users.receiverAlive = self.users.receiverAlive)
    (same : next.calls = self.calls) (submissions : next.users.submissions = self.users.submissions)
    (requests : self.users.requests = next.users.requests)
    (silent : ∀ event, .runtime event ∉ out)
    (unanswered : ∀ request response, .responded request response ∉ out) :
    Dealt (past ++ out) next := by
  refine dealt.quiet runtime answers alive ?_ ?_ ?_ silent unanswered
  · intro request call found
    rw [same] at found
    rw [← requests]
    exact dealt.numbered found
  · intro request submission found
    rw [submissions] at found
    rw [← requests]
    exact dealt.opened found
  · intro request call found
    rw [same] at found
    exact (dealt.calls found).append (by rw [submissions]) out

/-- A step of the runtime, on a message of an ingress or not. -/
theorem settle (dealt : Dealt past self) {runtime : Runtime} {events : List AcornAlarms.Event}
    {move : RuntimeAction} (fires : self.runtime.step config move = some (runtime, events))
    (automated : AutomatedIngress) (queue : List UserMessage) (before : List Event)
    (silent : ∀ event, .runtime event ∉ before)
    (unanswered : ∀ request response, .responded request response ∉ before)
    (traced : ∀ {event taken}, move = .turn taken → event.Stems taken →
      Traced (past ++ (before ++ events.map .runtime)) event) :
    Dealt (past ++ (before ++ events.map .runtime))
      ({ self with automated, users := { self.users with queue } }.settle runtime events) := by
  obtain ⟨running, stems⟩ := runtime_step dealt.running fires
  refine ⟨running, dealt.alive, dealt.numbered, dealt.opened, ?_, ?_, ?_, ?_⟩
  · exact fun found => (dealt.calls found).append rfl _
  · intro channel given found
    rcases get?_foldl_answer found with earlier | ⟨error, rfl, refused⟩ | ⟨id, key, resolved⟩
    · exact (dealt.answers earlier).append _
    · exact .inl ⟨error, rfl, by simp [refused]⟩
    · exact .inr ⟨id, key, by simp [resolved]⟩
  · intro event member
    rcases List.mem_append.mp member with early | late
    · exact (dealt.traced early).append _
    · rcases List.mem_append.mp late with prior | sent
      · exact absurd prior (silent event)
      · obtain ⟨taken, same, stem⟩ := stems event (by simpa using sent)
        exact traced same stem
  · intro request response member
    rcases List.mem_append.mp member with early | late
    · exact (dealt.responses early).append _
    · rcases List.mem_append.mp late with prior | sent
      · exact absurd prior (unanswered request response)
      · simp at sent

/-- A request that is not there yet has neither a call nor a submission. -/
theorem fresh (dealt : Dealt past self) : self.calls.get? self.users.requests = none ∧
    self.users.submissions.get? self.users.requests = none := by
  constructor
  · rw [Option.eq_none_iff_forall_ne_some]
    intro call found
    exact absurd (dealt.numbered found) (Nat.lt_irrefl _)
  · rw [Option.eq_none_iff_forall_ne_some]
    intro submission found
    exact absurd (dealt.opened found) (Nat.lt_irrefl _)

/-- A request that arrives waits for the devices it named. -/
theorem submit (dealt : Dealt past self) {devices : List String}
    (parsed : buildKeys devices = .ok keys) :
    Dealt (past ++ .submitted self.users.requests keys taken user ::
        (self.users.submit devices taken user).2.map .users)
      { self with
        users := (self.users.submit devices taken user).1
        calls := self.calls.insert self.users.requests ⟨keys, []⟩ } := by
  obtain ⟨_, unopened⟩ := dealt.fresh
  have requests : (self.users.submit devices taken user).1.requests = self.users.requests + 1 := by
    rw [UserIngress.submit_ok parsed]
    split <;> rfl
  have submissions : ∀ other, (self.users.submit devices taken user).1.submissions.get? other =
      if other = self.users.requests ∧ keys ≠ [] then some ⟨keys, taken, user⟩
      else self.users.submissions.get? other := by
    intro other
    rw [UserIngress.submit_ok parsed]
    by_cases none : keys = []
    · simp [none]
    · simp [none, FiniteMap.get?_insert]
  refine dealt.quiet rfl rfl ?_ ?_ ?_ ?_ (by simp) (by simp)
  · simp only [UserIngress.submit_ok parsed]
    split <;> rfl
  · intro request call found
    rw [FiniteMap.get?_insert] at found
    simp only [requests]
    split at found
    · omega
    · have below := dealt.numbered found
      omega
  · intro request submission found
    simp only [submissions] at found
    simp only [requests]
    split at found
    · omega
    · have below := dealt.opened found
      omega
  · intro request call found
    rw [FiniteMap.get?_insert] at found
    split at found
    · next same =>
        subst same
        obtain rfl := Option.some.inj found
        refine ⟨taken, user, [], by simp, .nil, .nil, ?_⟩
        simp only [submissions]
        by_cases none : keys = []
        · simp [none, unopened]
        · simp [none]
    · next other =>
        exact (dealt.calls found).append (by simp [submissions, other]) _

/-- A request that offers an update gets a channel for it, or is rejected. -/
theorem trySend (dealt : Dealt past self)
    (unused : UserIngress.Numbered (past.filterMap Event.users?) self.users)
    {users : UserIngress} {events : List UserIngress.Event}
    (steps : self.users.submitUpdate config.user request = some (users, events)) :
    Dealt (past ++ events.map .users)
      { self with users, calls := events.foldl note self.calls } := by
  obtain ⟨key, rest, taken, user, found, ⟨status, rfl, rfl⟩ | ⟨rfl, rfl⟩⟩ :=
    UserIngress.submitUpdate_cases steps
  · refine dealt.quiet rfl rfl rfl ?_ ?_ ?_ (by simp) (by simp)
    · intro other call present
      simp only [List.foldl_cons, List.foldl_nil, note, FiniteMap.get?_erase] at present
      split at present
      · cases present
      · exact dealt.numbered present
    · intro other submission present
      rw [FiniteMap.get?_erase] at present
      split at present
      · cases present
      · exact dealt.opened present
    · intro other call present
      simp only [List.foldl_cons, List.foldl_nil, note, FiniteMap.get?_erase] at present
      split at present
      · cases present
      · next apart => exact (dealt.calls present).append (FiniteMap.get?_erase_of_ne _ apart) _
  · -- The tail tells no call anything.
    have told : (UserIngress.Event.enqueued
          ⟨some request, .userUpdate key taken user self.users.confirmations⟩ ::
        if rest = [] then [.awaiting request] else []).foldl note self.calls =
        note self.calls
          (.enqueued ⟨some request, .userUpdate key taken user self.users.confirmations⟩) := by
      split <;> rfl
    have calls : ∀ other, (note self.calls (.enqueued
          ⟨some request, .userUpdate key taken user self.users.confirmations⟩)).get? other =
        if other = request then (self.calls.get? request).map fun call =>
          { call with results := call.results ++ [self.users.confirmations] }
        else self.calls.get? other := by
      intro other
      rw [note]
      cases present : self.calls.get? request with
      | none =>
          by_cases same : other = request
          · simp [same, present]
          · simp [same]
      | some call => simp [FiniteMap.get?_insert]
    refine dealt.quiet rfl rfl rfl ?_ ?_ ?_ (by simp) (by simp)
    · intro other call present
      simp only [told, calls] at present
      split at present
      · next same =>
          obtain ⟨before, waits, _⟩ := Option.map_eq_some_iff.mp present
          rw [same]
          exact dealt.numbered waits
      · exact dealt.numbered present
    · intro other submission present
      simp only [UserIngress.get?_rest] at present
      split at present
      · next same =>
          rw [same]
          exact dealt.opened found
      · exact dealt.opened present
    · intro other call present
      simp only [told, calls] at present
      split at present
      · next same =>
          subst same
          obtain ⟨before, waits, rfl⟩ := Option.map_eq_some_iff.mp present
          obtain ⟨given, name, done, submitted, offered, distinct, left⟩ := dealt.calls waits
          rw [found] at left
          obtain ⟨rfl, rfl, split⟩ := left
          -- The new channel is above those of the earlier updates.
          have fresh : self.users.confirmations ∉ before.results := by
            intro old
            obtain ⟨lengths, each⟩ := List.forall₂_iff_get.mp offered
            obtain ⟨index, inside, same⟩ := List.getElem_of_mem old
            have earlier := each index (lengths ▸ inside) inside
            rw [List.get_eq_getElem, List.get_eq_getElem, same] at earlier
            obtain ⟨channel, below, named⟩ := unused.fresh (mem_users.mpr earlier)
            obtain rfl := Option.some.inj named
            exact Nat.lt_irrefl _ below
          refine ⟨taken, user, done ++ [key], List.mem_append_left _ submitted, ?_,
            List.concat_eq_append ▸ distinct.concat fresh, ?_⟩
          · refine List.rel_append ?_ (.cons ?_ .nil)
            · exact offered.imp fun _ _ member => List.mem_append_left _ member
            · exact List.mem_append_right _ List.mem_cons_self
          · simp only [UserIngress.get?_rest, if_true]
            by_cases last : rest = []
            · simp [last, split]
            · simp [last, split]
      · next apart =>
          exact (dealt.calls present).append (by simp [UserIngress.get?_rest, apart]) _

/-- The handler of a request returns with what was sent on its channels. -/
theorem respond (dealt : Dealt past self) {call : Call} {results : List Receipt}
    (offered : self.users.submissions.get? request = none)
    (waits : self.calls.get? request = some call)
    (complete : self.receipts call = some results) :
    Dealt (past ++ [.responded request (handleConfirmation (call.keys.zip results))])
      { self with calls := self.calls.erase request } := by
  have base : Dealt (past ++ []) { self with calls := self.calls.erase request } := by
    refine dealt.quiet rfl rfl rfl ?_ dealt.opened ?_ (by simp) (by simp)
    · intro other call present
      rw [FiniteMap.get?_erase] at present
      split at present
      · cases present
      · exact dealt.numbered present
    · intro other call present
      rw [FiniteMap.get?_erase] at present
      split at present
      · cases present
      · exact (dealt.calls present).append rfl _
  rw [List.append_nil] at base
  obtain ⟨taken, user, done, submitted, channels, distinct, left⟩ := dealt.calls waits
  rw [offered] at left
  subst left
  -- The coordinator runs, so every channel was sent on.
  have sent : ∃ answers, results = answers.map some ∧ List.Forall₂
      (fun channel answer => self.answers.get? channel = some answer) call.results answers := by
    simp only [receipts, dealt.alive, Bool.not_true, Bool.or_false] at complete
    split at complete
    · next all =>
        rw [← Option.some.inj complete]
        exact self.answers.map_get?_of_present (by simpa using all)
    · cases complete
  refine
    { base with
      calls := fun found => (base.calls found).append rfl _
      answers := fun found => (dealt.answers found).append _
      traced := ?_
      responses := ?_ }
  · intro event member
    rcases List.mem_append.mp member with early | late
    · exact (dealt.traced early).append _
    · simp at late
  · intro number response member
    rcases List.mem_append.mp member with early | late
    · exact (dealt.responses early).append _
    · obtain ⟨rfl, rfl⟩ := Event.responded.inj (List.mem_singleton.mp late)
      obtain ⟨answers, listed, each⟩ := sent
      refine ⟨call.keys, taken, user, call.results, answers, ?_, ?_, by rw [listed]⟩
      · exact (Requested.mk submitted channels distinct).append _
      · exact each.imp fun _ _ found => (dealt.answers found).append _

/-- Every step keeps what is known of the calls. -/
theorem step (dealt : Dealt past self)
    (unused : UserIngress.Numbered (past.filterMap Event.users?) self.users)
    (fires : self.step config action = some (next, out)) : Dealt (past ++ out) next := by
  cases step_cases fires with
  | skip | respondSnapshot | abandonSnapshot =>
      exact dealt.still rfl rfl rfl rfl rfl rfl (by simp) (by simp)
  | call forwards steps | ingress internal steps =>
      exact dealt.still rfl rfl rfl rfl rfl rfl (by simp) (by simp)
  | decline declines => exact dealt.still rfl rfl rfl rfl rfl rfl (by simp) (by simp)
  | reject updates wrong =>
      rw [UserIngress.submit_error wrong]
      refine dealt.quiet rfl rfl rfl ?_ ?_ ?_ (by simp) (by simp)
      · exact fun found => Nat.lt_succ_of_lt (dealt.numbered found)
      · exact fun found => Nat.lt_succ_of_lt (dealt.opened found)
      · exact fun found => (dealt.calls found).append rfl _
  | submit updates parsed => exact dealt.submit parsed
  | trySend steps => exact dealt.trySend unused steps
  | getSnapshot =>
      rw [Service.getSnapshot]
      rcases UserIngress.trySend_cases
          { self.users with confirmations := self.users.confirmations + 1 } config.user
          ⟨none, .snapshotRequest self.users.confirmations⟩ with ⟨error, fails⟩ | ⟨alive, sends⟩
      · simp only [fails]
        exact dealt.still rfl rfl rfl rfl rfl rfl (by simp) (by simp)
      · simp only [sends]
        exact dealt.still rfl rfl rfl rfl rfl rfl (by simp) (by simp)
  | @takeUser now message rest runtime events alive queue turns =>
      refine dealt.settle turns self.automated rest [.users (.received message)] (by simp)
        (by simp) ?_
      intro event taken same stems
      obtain rfl := RuntimeAction.turn.inj same
      exact Traced.of_stems stems (by simp)
  | @takeAutomated now status rest runtime events queue turns =>
      refine dealt.settle turns { self.automated with queue := rest } self.users.queue
        [.automated (.received status)] (by simp) (by simp) ?_
      intro event taken same stems
      obtain rfl := RuntimeAction.turn.inj same
      refine Traced.of_unasked stems ?_
      rintro message asked time same
      cases same
      cases asked
  | @turn moved runtime events inner turns =>
      refine dealt.settle turns self.automated self.users.queue [] (by simp) (by simp) ?_
      intro event taken same stems
      obtain rfl := RuntimeAction.turn.inj same
      refine Traced.of_unasked stems ?_
      rintro message asked time rfl
      cases inner
  | accept accepts =>
      refine dealt.settle accepts self.automated self.users.queue [] (by simp) (by simp) ?_
      intro event taken same _
      cases same
  | dropReceivers stopped =>
      obtain ⟨lanes, refines⟩ := dealt.running
      have running : self.runtime.tasks.coordinatorRunning = true := refines.coordinatorRunning
      rw [stopped] at running
      cases running
  | respond offered waits complete => exact dealt.respond offered waits complete

end Dealt

/-- What is known of the calls in every run. -/
theorem dealt {admits : List Event → Service → Action → Prop}
    {hydratedStatuses : FiniteMap Key Status} {actions : List Action} {events : List Event}
    (run : (machine config).Run admits (start hydratedStatuses) actions events self) :
    Dealt events self := by
  induction run with
  | refl => exact Dealt.start hydratedStatuses
  | snoc prior _ fires ih =>
      obtain ⟨_, users⟩ := (usersPart config).run_every prior
      exact ih.step (UserIngress.numbered users) fires

end Service

end

end AcornAlarms
