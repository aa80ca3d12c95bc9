import AcornAlarms.Lanes.Dispatches
import AcornAlarms.Properties.Answers

/-!
# Requests that wait for ever

Once the tasks are at rest a request waits only for updates that were admitted and never
dispatched: a later intent of the same key took their place before their turn came. Whatever comes
after, such a request is never answered.
-/

namespace AcornAlarms

open Library

section

variable [Platform]

/-- Whether an event is the coordinator's decision on the update of a channel. -/
def Event.decides (channel : Confirmation) : Event → Bool
  | .admitted _ _ _ confirmation => confirmation = channel
  | .refused confirmation _ => confirmation = channel
  | _ => false

/-- The coordinator decides on a user update in the turn that takes it, and only on that one. -/
theorem Refines.decides {pipeline next : Pipeline} {lanes : Lanes} {out : List Event} {key : Key}
    {taken : UserAction} {user : String} {channel : Confirmation} {now : Int}
    (refines : Refines pipeline lanes)
    (fires : pipeline.step (.input (.userUpdate key taken user channel) now) = some (next, out)) :
    ∃ event rest, out = event :: rest ∧ (∀ other ∈ rest, ∃ job, other = .dispatched job) ∧
      ((∃ id status, event = .admitted id key status channel) ∨
        ∃ error, event = .refused channel error) := by
  simp only [Pipeline.step, Pipeline.handle, if_pos refines.coordinatorRunning,
    refines.jobPort_eq, AlarmStateCoordinator.handleMessage,
    AlarmStateCoordinator.handleUserUpdate_eq, Option.map_some, Option.some.injEq] at fires
  split at fires
  · rw [pipeline.coordinate_ok (AlarmStateCoordinator.recorded_failure ..)] at fires
    obtain ⟨_, rfl⟩ := Prod.mk.inj fires
    refine ⟨_, _, rfl, ?_, .inl ⟨_, _, rfl⟩⟩
    intro other member
    obtain ⟨job, _, rfl⟩ := List.mem_map.mp member
    exact ⟨job, rfl⟩
  · simp only [Handled.done, Pipeline.coordinate_ok] at fires
    obtain ⟨_, rfl⟩ := Prod.mk.inj fires
    exact ⟨_, [], rfl, by simp, .inr ⟨_, rfl⟩⟩

namespace UserIngress

/-- A message is in the queue once, and is taken from it once. -/
theorem spent {admits : List Event → UserIngress → Action → Prop} {capacity : Nat}
    {actions : List Action} {events : List Event} {self : UserIngress}
    (run : (machine capacity).Run admits new actions events self) :
    self.queue.Nodup ∧ ∀ message, .received message ∈ events → message ∉ self.queue := by
  induction run with
  | refl => simp [new]
  | @snoc actions events state action next out prior _ fires ih =>
      obtain ⟨distinct, taken⟩ := ih
      have intake := intake prior
      have offers := (step_offers fires).2
      -- A message that is offered now was not offered before.
      have new : ∀ {message}, .enqueued message ∈ out → .enqueued message ∉ events := by
        intro message offered early
        obtain ⟨channel, below, named⟩ := (numbered prior).fresh early
        rw [(offers message offered).1, Option.some.injEq] at named
        omega
      have still : next.queue = state.queue → (∀ message, .received message ∉ out) →
          next.queue.Nodup ∧ ∀ message, .received message ∈ events ++ out →
            message ∉ next.queue := by
        intro same none
        rw [same]
        refine ⟨distinct, fun message member => ?_⟩
        rcases List.mem_append.mp member with early | late
        · exact taken message early
        · exact absurd late (none message)
      cases step_cases fires with
      | refuse | empty | start | fail | ignore => exact still rfl (by simp)
      | @enqueue message tail submissions _ alive owner within tail_eq =>
          have fresh := @new message List.mem_cons_self
          have absent : message ∉ state.queue := fun inside => fresh (intake.queued _ inside)
          refine ⟨?_, ?_⟩
          · exact List.nodup_append.mpr ⟨distinct, List.nodup_singleton _, by
              rintro _ inside _ last rfl
              exact absent (List.mem_singleton.mp last ▸ inside)⟩
          · intro other member
            rcases List.mem_append.mp member with early | late
            · refine List.not_mem_append (taken other early) ?_
              rintro last
              obtain rfl := List.mem_singleton.mp last
              exact fresh (intake.taken _ early)
            · rcases List.mem_cons.mp late with same | inside
              · cases same
              · obtain ⟨_, same⟩ := tail_eq _ inside
                cases same
      | @receive message rest alive front =>
          rw [front] at distinct
          obtain ⟨absent, distinct⟩ := List.nodup_cons.mp distinct
          refine ⟨distinct, fun other member => ?_⟩
          rcases List.mem_append.mp member with early | late
          · have outside := taken other early
            rw [front] at outside
            exact fun inside => outside (List.mem_cons_of_mem _ inside)
          · obtain rfl := Event.received.inj (List.mem_singleton.mp late)
            exact absent
      | dropReceiver => simp

end UserIngress

namespace Service

variable {config : QueueCapacityConfig} {hydratedStatuses : FiniteMap Key Status}
  {admits : List Event → Service → Action → Prop} {actions : List Action}
  {events past out : List Event} {self next : Service} {request : Nat}

/-- What was sent on a channel stays in the map. -/
theorem isSome_foldl_answer {channel : Confirmation} {events : List AcornAlarms.Event}
    {answers : FiniteMap Confirmation (Except UpdateError Unit)}
    (known : (answers.get? channel).isSome = true ∨ (∃ error, .refused channel error ∈ events) ∨
      ∃ id key given, .resolved id key channel given ∈ events) :
    ((events.foldl answer answers).get? channel).isSome = true := by
  induction events generalizing answers with
  | nil => simpa using known
  | cons event rest ih =>
      apply ih
      -- An event either sends on the channel or leaves what was sent.
      rcases known with earlier | ⟨error, member⟩ | ⟨id, key, given, member⟩
      · left
        cases event with
        | resolved | refused =>
            rw [answer, FiniteMap.get?_insert]
            split
            · rfl
            · exact earlier
        | _ => exact earlier
      · rcases List.mem_cons.mp member with rfl | late
        · exact .inl (by simp [answer])
        · exact .inr (.inl ⟨error, late⟩)
      · rcases List.mem_cons.mp member with rfl | late
        · exact .inl (by simp [answer])
        · exact .inr (.inr ⟨id, key, given, late⟩)

/-- What a history says of the updates the coordinator took. -/
structure Heeded (past : List Event) (reached : Service) : Prop where
  /-- Every update that was taken was decided. -/
  decided : ∀ {owner key taken user channel},
    .users (.received ⟨owner, .userUpdate key taken user channel⟩) ∈ past →
      (∃ id status, .runtime (.admitted id key status channel) ∈ past) ∨
        ∃ error, .runtime (.refused channel error) ∈ past
  /-- It was decided once. -/
  once : ∀ {channel event other}, .runtime event ∈ past → .runtime other ∈ past →
    event.decides channel = true → other.decides channel = true → event = other
  known : ∀ {channel given}, Sent past channel given →
    (reached.answers.get? channel).isSome = true

theorem Sent.of_quiet {channel : Confirmation} {given : Except UpdateError Unit}
    (quiet : ∀ event, .runtime event ∉ out) (sent : Sent (past ++ out) channel given) :
    Sent past channel given := by
  rcases sent with ⟨error, same, refused⟩ | ⟨id, key, resolved⟩
  · rcases List.mem_append.mp refused with early | late
    · exact .inl ⟨error, same, early⟩
    · exact absurd late (quiet _)
  · rcases List.mem_append.mp resolved with early | late
    · exact .inr ⟨id, key, early⟩
    · exact absurd late (quiet _)

/-- A step without the runtime in which the coordinator takes no update. -/
theorem Heeded.quiet (heeded : Heeded past self) (answers : next.answers = self.answers)
    (silent : ∀ event, .runtime event ∉ out) (untaken : ∀ message, .users (.received message) ∉ out) :
    Heeded (past ++ out) next where
  decided := by
    intro owner key taken user channel member
    rcases List.mem_append.mp member with early | late
    · rcases heeded.decided early with ⟨id, status, admitted⟩ | ⟨error, refused⟩
      · exact .inl ⟨id, status, List.mem_append_left _ admitted⟩
      · exact .inr ⟨error, List.mem_append_left _ refused⟩
    · exact absurd late (untaken _)
  once := by
    intro channel event other first second
    rcases List.mem_append.mp first with early | late
    · rcases List.mem_append.mp second with early' | late'
      · exact heeded.once early early'
      · exact absurd late' (silent _)
    · exact absurd late (silent _)
  known := by
    intro channel given sent
    rw [answers]
    exact heeded.known (sent.of_quiet silent)

/-- A step of the runtime. -/
theorem Heeded.settle (heeded : Heeded past self) {events : List AcornAlarms.Event}
    (before : List Event) (silent : ∀ event, .runtime event ∉ before)
    (same : next.answers = events.foldl answer self.answers)
    (taken : ∀ {owner key taken user channel},
      .users (.received ⟨owner, .userUpdate key taken user channel⟩) ∈ before →
        (∃ id status, .admitted id key status channel ∈ events) ∨
          ∃ error, .refused channel error ∈ events)
    (alone : ∀ {channel event other}, event ∈ events → event.decides channel = true →
      (.runtime other ∈ past ∨ other ∈ events) → other.decides channel = true → event = other) :
    Heeded (past ++ (before ++ events.map .runtime)) next where
  decided := by
    intro owner key asked user channel member
    rcases List.mem_append.mp member with early | late
    · rcases heeded.decided early with ⟨id, status, admitted⟩ | ⟨error, refused⟩
      · exact .inl ⟨id, status, List.mem_append_left _ admitted⟩
      · exact .inr ⟨error, List.mem_append_left _ refused⟩
    · rcases List.mem_append.mp late with now | sent
      · rcases taken now with ⟨id, status, admitted⟩ | ⟨error, refused⟩
        · exact .inl ⟨id, status, by simp [admitted]⟩
        · exact .inr ⟨error, by simp [refused]⟩
      · simp at sent
  once := by
    have place : ∀ {event}, .runtime event ∈ past ++ (before ++ events.map .runtime) →
        .runtime event ∈ past ∨ event ∈ events := by
      intro event member
      rcases List.mem_append.mp member with early | late
      · exact .inl early
      · rcases List.mem_append.mp late with now | sent
        · exact absurd now (silent _)
        · exact .inr (by simpa using sent)
    intro channel event other first second decides decides'
    rcases place first with early | late
    · rcases place second with early' | late'
      · exact heeded.once early early' decides decides'
      · exact (alone late' decides' (.inl early) decides).symm
    · exact alone late decides (place second) decides'
  known := by
    intro channel given sent
    rw [same]
    apply isSome_foldl_answer
    rcases sent with ⟨error, same, refused⟩ | ⟨id, key, resolved⟩
    · rcases List.mem_append.mp refused with early | late
      · exact .inl (heeded.known (.inl ⟨error, same, early⟩))
      · rcases List.mem_append.mp late with now | sent
        · exact absurd now (silent _)
        · exact .inr (.inl ⟨error, by simpa using sent⟩)
    · rcases List.mem_append.mp resolved with early | late
      · exact .inl (heeded.known (.inr ⟨id, key, early⟩))
      · rcases List.mem_append.mp late with now | sent
        · exact absurd now (silent _)
        · exact .inr (.inr ⟨id, key, given, by simpa using sent⟩)

/-- A turn that takes no user update decides none. -/
theorem undecided {taken : AcornAlarms.Action} {event : AcornAlarms.Event} {channel : Confirmation}
    (stems : event.Stems taken)
    (unasked : ∀ key asked user channel now,
      taken ≠ .input (.userUpdate key asked user channel) now) : event.decides channel = false := by
  cases event with
  | admitted id key status confirmation =>
      obtain ⟨_, _, now, same, _⟩ := stems
      exact absurd same (unasked _ _ _ _ _)
  | refused confirmation error =>
      obtain ⟨_, _, _, now, _, _, same, _⟩ := stems
      exact absurd same (unasked _ _ _ _ _)
  | _ => rfl

/-- An update at the head of the queue was not decided before. -/
theorem undecided_before
    (run : (machine config).Run admits (start hydratedStatuses) actions events self)
    {owner : Option Nat} {key : Key} {taken : UserAction} {user : String} {channel : Confirmation}
    (waiting : ⟨owner, .userUpdate key taken user channel⟩ ∈ self.users.queue)
    {event : AcornAlarms.Event} (member : .runtime event ∈ events) :
    event.decides channel = false := by
  obtain ⟨turns, users⟩ := (usersPart config).run_every run
  have intake := UserIngress.intake users
  -- What was taken on the channel is this message, which is still in the queue.
  have untaken : ∀ {other : UserMessage}, other.input.channel? = some channel →
      .users (.received other) ∉ events := by
    intro other names received
    have taken := mem_users.mpr received
    have same := (UserIngress.numbered users).unique (intake.taken _ taken)
      (intake.queued _ waiting) names
    exact (UserIngress.spent users).2 _ taken (same ▸ waiting)
  have traced := (dealt run).traced member
  cases event with
  | admitted id key status confirmation =>
      obtain ⟨owner, taken, user, now, received, _⟩ := traced
      rw [Event.decides, decide_eq_false_iff_not]
      rintro rfl
      exact untaken rfl received
  | refused confirmation error =>
      obtain ⟨owner, key, taken, user, current, wake, received, _⟩ := traced
      rw [Event.decides, decide_eq_false_iff_not]
      rintro rfl
      exact untaken rfl received
  | _ => rfl

/-- What is known of the decisions in every run. -/
theorem heeded (run : (machine config).Run admits (start hydratedStatuses) actions events self) :
    Heeded events self := by
  induction run with
  | refl => exact ⟨by simp, by simp, by simp [Sent]⟩
  | @snoc actions events state action next out prior _ fires ih =>
      obtain ⟨lanes, refines⟩ := (dealt prior).running
      -- A runtime step on no user update decides nothing.
      have idle : ∀ {runtime move moved} (before : List Event) {next : Service},
          state.runtime.step config move = some (runtime, moved) →
          next.answers = moved.foldl answer state.answers →
          (∀ event, .runtime event ∉ before) →
          (∀ owner key taken user channel,
            .users (.received ⟨owner, .userUpdate key taken user channel⟩) ∉ before) →
          (∀ key asked user channel now,
            move ≠ .turn (.input (.userUpdate key asked user channel) now)) →
          Heeded (events ++ (before ++ moved.map .runtime)) next := by
        intro runtime move moved before next steps answers silent untaken unasked
        refine ih.settle before silent answers (fun member => absurd member (untaken _ _ _ _ _)) ?_
        intro channel event other member decides
        obtain ⟨taken, rfl, stems⟩ := (runtime_step ⟨lanes, refines⟩ steps).2 event member
        rw [undecided stems fun _ _ _ _ _ same => unasked _ _ _ _ _ (congrArg _ same)] at decides
        cases decides
      cases step_cases fires with
      | skip | decline | respond | respondSnapshot | abandonSnapshot | dropReceivers =>
          exact ih.quiet rfl (by simp) (by simp)
      | call | ingress => exact ih.quiet rfl (by simp) (by simp)
      | @reject _ _ _ _ _ updates wrong =>
          rw [UserIngress.submit_error wrong]
          exact ih.quiet rfl (by simp) (by simp)
      | submit updates parsed =>
          rw [UserIngress.submit_ok parsed]
          split <;> exact ih.quiet rfl (by simp) (by simp)
      | trySend steps =>
          obtain ⟨_, _, _, _, _, ⟨_, rfl, rfl⟩ | ⟨rfl, rfl⟩⟩ := UserIngress.submitUpdate_cases steps
          · exact ih.quiet rfl (by simp) (by simp)
          · refine ih.quiet rfl (by simp) ?_
            split <;> simp
      | getSnapshot =>
          rw [Service.getSnapshot]
          simp only
          split <;> exact ih.quiet rfl (by simp) (by simp)
      | @takeUser now message rest runtime moved alive queue turns =>
          obtain ⟨owner, input⟩ := message
          cases input with
          | userUpdate key asked user channel =>
              rcases Runtime.flatten_step turns with ⟨_, same, steps⟩ | ⟨⟨_, same⟩, _⟩
              · cases same
                obtain ⟨decision, sent, rfl, others, decides⟩ := refines.decides steps
                have only : ∀ {event given}, event ∈ decision :: sent →
                    event.decides given = true → event = decision ∧ given = channel := by
                  intro event given member decided
                  rcases List.mem_cons.mp member with rfl | late
                  · refine ⟨rfl, ?_⟩
                    rcases decides with ⟨id, status, rfl⟩ | ⟨error, rfl⟩
                    · exact (of_decide_eq_true decided).symm
                    · exact (of_decide_eq_true decided).symm
                  · obtain ⟨job, rfl⟩ := others event late
                    cases decided
                refine ih.settle [.users (.received _)] (by simp) rfl ?_ ?_
                · intro owner' key' asked' user' channel' member
                  cases List.mem_singleton.mp member
                  rcases decides with ⟨id, status, rfl⟩ | ⟨error, rfl⟩
                  · exact .inl ⟨id, status, List.mem_cons_self⟩
                  · exact .inr ⟨error, List.mem_cons_self⟩
                · intro given event other member decided place decided'
                  obtain ⟨rfl, rfl⟩ := only member decided
                  rcases place with early | late
                  · rw [undecided_before prior (by rw [queue]; exact List.mem_cons_self) early]
                      at decided'
                    cases decided'
                  · exact (only late decided').1.symm
              · cases same
          | snapshotRequest sender =>
              exact idle [.users (.received _)] turns rfl (by simp) (by simp) (by simp)
          | automatedUpdate status =>
              exact idle [.users (.received _)] turns rfl (by simp) (by simp) (by simp)
      | takeAutomated queue turns =>
          exact idle [.automated (.received _)] turns rfl (by simp) (by simp) (by simp)
      | turn inner turns =>
          refine idle [] turns rfl (by simp) (by simp) ?_
          rintro key asked user channel now same
          cases same
          cases inner
      | accept accepts => exact idle [] accepts rfl (by simp) (by simp) (by simp)

/-- The coordinator has taken every message and no job is outstanding. -/
def AtRest (self : Service) : Prop :=
  self.users.queue = [] ∧ ∀ key, self.runtime.flatten.outstanding key = []

/-- An update was admitted on a channel and never dispatched, and its key recorded another
status later. -/
def Displaced (events : List Event) (entry : Key × Confirmation) : Prop :=
  ∃ before after id status,
    tasks events = before ++ .admitted id entry.1 status entry.2 :: after ∧
      (∀ job, .dispatched job ∈ tasks events → job.id ≠ id) ∧
      ∃ event ∈ after, event.recordKey? = some entry.1

/-- What the tasks know of the admitted updates in every run. -/
theorem carried (run : (machine config).Run admits (start hydratedStatuses) actions events self) :
    ∃ lanes, Refines self.runtime.flatten lanes ∧ Carried (tasks events) lanes ∧
      Answered (tasks events) lanes.desk ∧ Settled (tasks events) ∧
      Ledger hydratedStatuses (tasks events) lanes.desk lanes.underway := by
  obtain ⟨turns, runs⟩ := tasks_run run
  obtain ⟨lanes, refines, ledger, _, carried, answered, settled⟩ :=
    (Refines.initial hydratedStatuses).history runs
      (fun past lanes => Ledger hydratedStatuses past lanes.desk lanes.underway ∧
        lanes.Chronicle past ∧ Carried past lanes ∧ Answered past lanes.desk ∧ Settled past)
      ⟨Ledger.start hydratedStatuses, fun _ => .idle, Carried.start hydratedStatuses,
        fun _ _ _ _ member => absurd member List.not_mem_nil,
        fun _ _ _ _ member => absurd member List.not_mem_nil⟩
      (by
        rintro past lanes out next ⟨ledger, chronicle, carried, answered, settled⟩ step
        exact ⟨step.ledger ledger, step.chronicle chronicle, carried.step step ledger chronicle,
          step.answered ledger answered, step.settled ledger settled⟩)
  exact ⟨lanes, refines, carried, answered, settled, ledger⟩

/-- At rest no job is under way and no intent is left. -/
theorem AtRest.idle (rest : self.AtRest) {lanes : Lanes}
    (refines : Refines self.runtime.flatten lanes) (key : Key) :
    lanes.underway key = none ∧ lanes.desk.speculativeState.get? key = none := by
  have idle := refines.idle_of_outstanding (rest.2 key)
  refine ⟨by rw [Lanes.underway, idle]; rfl, ?_⟩
  have busy := lanes.busy key
  rw [idle] at busy
  simpa [Stage.job?] using busy

/-- At rest an update that was offered is answered, or was displaced. -/
theorem AtRest.settled (rest : self.AtRest)
    (run : (machine config).Run admits (start hydratedStatuses) actions events self)
    {key : Key} {taken : UserAction} {user : String} {channel : Confirmation}
    (offered : Offered events request taken user key channel)
    (unanswered : self.answers.get? channel = none) : Displaced events (key, channel) := by
  obtain ⟨turns, users⟩ := (usersPart config).run_every run
  have heeded := heeded run
  have silent : ∀ {given}, ¬ Sent events channel given := by
    intro given sent
    have known := heeded.known sent
    rw [unanswered] at known
    cases known
  -- It was taken, and it was not refused.
  have received : .users (.received ⟨some request, .userUpdate key taken user channel⟩) ∈ events := by
    rcases (UserIngress.intake users).held (dealt run).alive _ (mem_users.mpr offered) with
      taken | waiting
    · exact mem_users.mp taken
    · have empty : self.users.queue = [] := rest.1
      simp only [usersPart, empty] at waiting
      cases waiting
  rcases heeded.decided received with ⟨id, status, admitted⟩ | ⟨error, refused⟩
  · obtain ⟨lanes, refines, carried, answered, _⟩ := carried run
    have owed : lanes.desk.pendingConfirmations.get? id = some channel := by
      rcases answered _ _ _ _ (mem_tasks.mpr admitted) with owed | ⟨answer, resolved⟩
      · exact owed
      · have sent : Sent events channel answer := .inr ⟨id, key, mem_tasks.mp resolved⟩
        exact absurd sent silent
    have undispatched : ∀ job, .dispatched job ∈ tasks events → job.id ≠ id := by
      rintro job dispatched rfl
      obtain ⟨current, under, _⟩ := carried.under dispatched (by rw [owed]; rfl)
      rw [(rest.idle refines _).1] at under
      cases under
    obtain ⟨before, after, split⟩ := List.append_of_mem (mem_tasks.mpr admitted)
    refine ⟨before, after, id, status, split, undispatched, ?_⟩
    rcases carried.admitted split with latest | later | ⟨job, dispatched, same⟩
    · rw [(rest.idle refines key).2] at latest
      cases latest
    · exact later
    · exact absurd same (undispatched job dispatched)
  · exact absurd (.inl ⟨error, rfl, refused⟩) silent

/-- A displaced update is never answered. -/
theorem Displaced.unanswered
    (run : (machine config).Run admits (start hydratedStatuses) actions events self)
    {entry : Key × Confirmation} (displaced : Displaced events entry) :
    self.answers.get? entry.2 = none := by
  obtain ⟨before, after, id, status, split, undispatched, _⟩ := displaced
  have admitted : .runtime (.admitted id entry.1 status entry.2) ∈ events := by
    rw [← mem_tasks, split]
    simp
  -- Nothing else was decided on its channel.
  have alone : ∀ {event}, .runtime event ∈ events → event.decides entry.2 = true →
      .admitted id entry.1 status entry.2 = event :=
    fun member decides => (heeded run).once admitted member (decide_eq_true rfl) decides
  rw [Option.eq_none_iff_forall_ne_some]
  intro answer found
  rcases (dealt run).answers found with ⟨error, _, refused⟩ | ⟨other, key, resolved⟩
  · cases alone refused (decide_eq_true rfl)
  · obtain ⟨lanes, _, carried, _, settled, _⟩ := carried run
    obtain ⟨status, again⟩ := settled _ _ _ _ (mem_tasks.mpr resolved)
    cases alone (mem_tasks.mp again) (decide_eq_true rfl)
    obtain ⟨job, dispatched, same⟩ := carried.answered (mem_tasks.mpr resolved)
    exact undispatched job dispatched same

/-- An update that is displaced at rest is displaced in every continuation. -/
theorem Displaced.later (rest : self.AtRest)
    (run : (machine config).Run admits (start hydratedStatuses) actions events self)
    {later : List Action} {more : List Event} {final : Service}
    (continues : (machine config).Run Machine.Every self later more final)
    {entry : Key × Confirmation} (displaced : Displaced events entry) :
    Displaced (events ++ more) entry := by
  obtain ⟨before, after, id, status, split, undispatched, event, follows, names⟩ := displaced
  have admitted : .admitted id entry.1 status entry.2 ∈ tasks events := by
    rw [split]
    simp
  obtain ⟨lanes, refines, carried, answered, _, ledger⟩ := carried run
  -- The update still owes its answer, and nothing of the tasks refers to its id any more.
  have owed : lanes.desk.pendingConfirmations.get? id = some entry.2 := by
    obtain owed | ⟨answer, resolved⟩ := answered _ _ _ _ admitted
    · exact owed
    · obtain ⟨job, dispatched, same⟩ := carried.answered resolved
      exact absurd same (undispatched job dispatched)
  have retired : Retired lanes.desk lanes.underway id := by
    obtain ⟨positive, below⟩ := ledger.fresh (.inr ⟨entry.2, admitted⟩)
    refine ⟨positive, below, fun key other latest => ?_, fun key other confirmed => ?_,
      fun key job under => ?_⟩
    · rw [(rest.idle refines key).2] at latest
      cases latest
    · rw [ledger.settled confirmed] at owed
      cases owed
    · rw [(rest.idle refines key).1] at under
      cases under
  obtain ⟨_, moves⟩ := tasks_from continues
  obtain ⟨_, _, _, silent⟩ := refines.history moves
    (fun more reached => Retired reached.desk reached.underway id ∧
      ∀ job, .dispatched job ∈ more → job.id ≠ id)
    ⟨retired, by simp⟩
    (by
      rintro more reached out next ⟨retired, silent⟩ step
      have stays := step.retired retired
      refine ⟨stays, fun job member => ?_⟩
      obtain early | late := List.mem_append.mp member
      · exact silent job early
      · exact stays.underway job.key job (step.dispatches late))
  refine ⟨before, after ++ tasks more, id, status, ?_, fun job member => ?_, event,
    List.mem_append_left _ follows, names⟩
  · rw [tasks, List.filterMap_append, ← tasks, ← tasks, split, List.append_assoc, List.cons_append]
  · rw [tasks, List.filterMap_append] at member
    obtain early | late := List.mem_append.mp member
    · exact undispatched job early
    · exact silent job late

/-- A request that offered all its updates waits with its channels until it is answered. -/
theorem step_waits {call : Call} {action : Action} (arrived : request < self.users.requests)
    (offered : self.users.submissions.get? request = none)
    (waits : self.calls.get? request = some call)
    (fires : self.step config action = some (next, out)) :
    (next.users.submissions.get? request = none ∧ next.calls.get? request = some call) ∨
      self.respond request ≠ none := by
  cases step_cases fires with
  | skip | decline | call | ingress | takeUser | takeAutomated | turn | accept | dropReceivers |
    respondSnapshot | abandonSnapshot => exact .inl ⟨offered, waits⟩
  | @reject _ _ _ _ _ _ wrong =>
      rw [UserIngress.submit_error wrong]
      exact .inl ⟨offered, waits⟩
  | submit _ parsed =>
      have other : request ≠ self.users.requests := by omega
      rw [UserIngress.submit_ok parsed, FiniteMap.get?_insert_of_ne _ _ other]
      split
      · exact .inl ⟨offered, waits⟩
      · rw [FiniteMap.get?_insert_of_ne _ _ other]
        exact .inl ⟨offered, waits⟩
  | @trySend number users out steps =>
      obtain ⟨key, rest, taken, user, found, moved⟩ := UserIngress.submitUpdate_cases steps
      -- The request that offers an update is another one.
      have other : request ≠ number := by
        rintro rfl
        rw [offered] at found
        cases found
      obtain ⟨status, rfl, rfl⟩ | ⟨rfl, rfl⟩ := moved
      · left
        simp only [List.foldl_cons, List.foldl_nil, note, FiniteMap.get?_erase_of_ne _ other]
        exact ⟨offered, waits⟩
      · left
        refine ⟨by rw [UserIngress.get?_rest, if_neg other]; exact offered, ?_⟩
        have kept : (note self.calls (.enqueued ⟨some number,
            .userUpdate key taken user self.users.confirmations⟩)).get? request = some call := by
          rw [note]
          split
          · rw [FiniteMap.get?_insert_of_ne _ _ other]
            exact waits
          · exact waits
        split <;> exact kept
  | getSnapshot =>
      left
      rw [Service.getSnapshot]
      simp only
      split
      · exact ⟨offered, waits⟩
      · next users sends =>
          obtain ⟨error, fails⟩ | ⟨_, sent⟩ := UserIngress.trySend_cases
            { self.users with confirmations := self.users.confirmations + 1 } config.user
            ⟨none, .snapshotRequest self.users.confirmations⟩
          · rw [fails] at sends
            cases sends
          · rw [sent] at sends
            cases sends
            exact ⟨offered, waits⟩
  | @respond number other results _ found complete =>
      by_cases same : request = number
      · right
        subst same
        simp [respond, offered, found, complete]
      · exact .inl ⟨offered, by rw [FiniteMap.get?_erase_of_ne _ same]; exact waits⟩

/-- A response is given by the handler of its request. -/
theorem responds {action : Action} {response : Except TonicStatus Unit}
    (fires : self.step config action = some (next, out))
    (member : .responded request response ∈ out) : self.respond request ≠ none := by
  cases step_cases fires with
  | respond offered waits complete =>
      obtain ⟨rfl, -⟩ := Event.responded.inj (List.mem_singleton.mp member)
      simp [respond, offered, waits, complete]
  | getSnapshot =>
      rw [Service.getSnapshot] at member
      simp only at member
      split at member <;> simp at member
  | _ => simp at member

/-- A request that offered all its updates cannot be answered exactly if one of its channels is
still open. -/
theorem Dealt.respond_eq_none_iff {past : List Event} {call : Call} (dealt : Dealt past self)
    (offered : self.users.submissions.get? request = none)
    (waits : self.calls.get? request = some call) :
    self.respond request = none ↔ ∃ channel ∈ call.results, self.answers.get? channel = none := by
  simp [Service.respond, offered, waits, receipts, dealt.alive]

/-- A request with a displaced update is not answered in any continuation. -/
theorem Displaced.never_responded (rest : self.AtRest)
    (run : (machine config).Run admits (start hydratedStatuses) actions events self)
    {call : Call} (offered : self.users.submissions.get? request = none)
    (waits : self.calls.get? request = some call) {entry : Key × Confirmation}
    (displaced : Displaced events entry) (owed : entry.2 ∈ call.results) {later : List Action}
    {more : List Event} {final : Service}
    (continues : (machine config).Run Machine.Every self later more final) :
    (final.users.submissions.get? request = none ∧ final.calls.get? request = some call) ∧
      ∀ response, .responded request response ∉ more := by
  induction continues with
  | refl => exact ⟨⟨offered, waits⟩, by simp⟩
  | @snoc moves more state action next out prior _ fires ih =>
      obtain ⟨⟨offered, waits⟩, unanswered⟩ := ih
      have reached := run.forget.append (fun _ _ _ _ _ => trivial) prior
      -- The channel stays open, so the handler has nothing to answer with.
      have silent : state.respond request = none :=
        ((dealt reached).respond_eq_none_iff offered waits).mpr
          ⟨entry.2, owed, (displaced.later rest run prior).unanswered reached⟩
      refine ⟨(step_waits ((dealt reached).numbered waits) offered waits fires).resolve_right
        fun answers => answers silent, fun response member => ?_⟩
      obtain early | late := List.mem_append.mp member
      · exact unanswered response early
      · exact responds fires late silent

/-- At rest a request that offered all its updates is not answered now, and in no continuation is
it answered, exactly if one of the updates was replaced by a later status of its key before it was
dispatched. -/
theorem waits_iff_displaced {call : Call}
    (run : (machine config).Run admits (start hydratedStatuses) actions events self)
    (rest : self.AtRest) (offered : self.users.submissions.get? request = none)
    (waits : self.calls.get? request = some call) :
    (self.respond request = none ↔ ∃ entry ∈ call.keys.zip call.results, Displaced events entry) ∧
      ((∀ later more final, (machine config).Run Machine.Every self later more final →
          ∀ response, .responded request response ∉ more) ↔
        ∃ entry ∈ call.keys.zip call.results, Displaced events entry) := by
  obtain ⟨taken, user, done, submitted, channels, _, left⟩ := (dealt run).calls waits
  rw [offered] at left
  subst left
  obtain ⟨lengths, each⟩ := List.forall₂_iff_zip.mp channels
  have unzipped : (call.keys.zip call.results).map Prod.snd = call.results :=
    List.map_snd_zip (Nat.le_of_eq lengths.symm)
  have now : self.respond request = none ↔
      ∃ entry ∈ call.keys.zip call.results, Displaced events entry := by
    rw [(dealt run).respond_eq_none_iff offered waits]
    constructor
    · rintro ⟨channel, member, unanswered⟩
      rw [← unzipped] at member
      obtain ⟨entry, inside, rfl⟩ := List.mem_map.mp member
      exact ⟨entry, inside, rest.settled run (each inside) unanswered⟩
    · rintro ⟨entry, inside, displaced⟩
      exact ⟨entry.2, unzipped ▸ List.mem_map_of_mem inside, displaced.unanswered run⟩
  refine ⟨now, fun never => ?_, ?_⟩
  · rw [← now]
    cases answers : self.respond request with
    | none => rfl
    | some reached =>
        obtain ⟨next, out⟩ := reached
        obtain ⟨results, -, same⟩ : ∃ results, self.receipts call = some results ∧
            (({ self with calls := self.calls.erase request } : Service),
              [Event.responded request (handleConfirmation (call.keys.zip results))]) =
              (next, out) := by
          simpa [respond, offered, waits] using answers
        cases same
        have step : (machine config).Run Machine.Every self [.respond request] ([] ++
            [.responded request (handleConfirmation (call.keys.zip results))]) _ :=
          .snoc .refl trivial answers
        exact absurd (List.mem_singleton_self _) (never _ _ _ step _)
  · rintro ⟨entry, inside, displaced⟩ later more final continues
    exact (displaced.never_responded rest run offered waits
      (unzipped ▸ List.mem_map_of_mem inside) continues).2

end Service

end

section

attribute [local instance] asciiPlatform

namespace Service

/-- While an alarm of the pump is being published it is acknowledged and then bypassed. -/
def bypassBehind : List Action :=
  [.entry (pumpEntry "high") 0, .ingress .readMode, .ingress .trySend, .takeAutomated 0,
   .accept .coordinator,
   .request (.acknowledge ["PUMP#Analog"] "operator"), .trySend 0, .takeUser 0,
   .request (.bypass ["PUMP#Analog"] "operator"), .trySend 1, .takeUser 0] ++ carry.tail ++
  [.turn (.completion 0 true), .turn .flush] ++ deliver.tail ++ carry ++ deliver ++ [.respond 1]

/-- The acknowledgement waits for ever. -/
theorem waits_iff_displaced_acknowledged : ∃ (final : Service) (events : List Event) (call : Call),
    (machine narrow).Run Machine.Every (start .empty) bypassBehind events final ∧ final.AtRest ∧
      final.calls.get? 0 = some call ∧ (∃ entry ∈ call.keys.zip call.results,
        Displaced events entry) ∧ ∀ later more reached, (machine narrow).Run Machine.Every final
          later more reached → ∀ response, .responded 0 response ∉ more := by
  obtain ⟨final, events, run, check⟩ := run_of_check narrow bypassBehind
    (fun final _ => decide (final.users.queue = [] ∧
      final.runtime.flatten.coordinator.speculativeState.keys = [] ∧
      final.users.submissions.get? 0 = none ∧ final.calls.get? 0 = some ⟨[pump], [0]⟩ ∧
      final.answers.get? 0 = none)) (by decide)
  simp only [decide_eq_true_eq] at check
  obtain ⟨queue, keys, offered, waits, unanswered⟩ := check
  have dealt := dealt run
  obtain ⟨lanes, refines⟩ := dealt.running
  have rest : final.AtRest :=
    ⟨queue, fun key => refines.outstanding_nil ((FiniteMap.keys_eq_nil_iff _).mp keys key)⟩
  have stuck : final.respond 0 = none := by
    simp [respond, offered, waits, receipts, unanswered, dealt.alive]
  obtain ⟨now, never⟩ := waits_iff_displaced run rest offered waits
  have displaced := now.mp stuck
  exact ⟨final, events, _, run, rest, waits, displaced, never.mpr displaced⟩

end Service

end

end AcornAlarms
