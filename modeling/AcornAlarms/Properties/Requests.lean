import AcornAlarms.Adapters.Grpc

/-!
# Rejected requests

What a request enqueued before its rejection stays in the queue. So a rejected request is
without effect exactly if nothing of it was enqueued, or the coordinator stopped before it
took any of that.
-/

namespace AcornAlarms

open Library

section

variable [Platform]

namespace UserIngress

variable {self next : UserIngress} {capacity request : Nat} {events out : List Event}
  {action : Action} {message : UserMessage}

/-- What the tasks can do. -/
inductive Step (self : UserIngress) : List Event → UserIngress → Prop where
  | refuse {status} : Step self [.rejected self.requests status]
      { self with requests := self.requests + 1 }
  | empty : Step self [.awaiting self.requests] { self with requests := self.requests + 1 }
  | start {submission} : Step self []
      { self with
        requests := self.requests + 1
        submissions := self.submissions.insert self.requests submission }
  | fail {request submission status confirmations}
      (found : self.submissions.get? request = some submission) :
      Step self [.rejected request status]
        { self with confirmations, submissions := self.submissions.erase request }
  | enqueue {message tail submissions confirmations} (alive : self.receiverAlive = true)
      (owner : ∀ request, message.request = some request →
        (self.submissions.get? request).isSome = true)
      (within : ∀ request, (submissions.get? request).isSome = true →
        (self.submissions.get? request).isSome = true)
      (tail_eq : ∀ event ∈ tail, ∃ request, event = .awaiting request) :
      Step self (.enqueued message :: tail)
        { self with queue := self.queue ++ [message], confirmations, submissions }
  | ignore {confirmations} : Step self [] { self with confirmations }
  | receive {message rest} (alive : self.receiverAlive = true)
      (front : self.queue = message :: rest) :
      Step self [.received message] { self with queue := rest }
  | dropReceiver : Step self [] { self with receiverAlive := false, queue := [] }

/-- A send is refused, or appends its message to the queue of a running coordinator. -/
theorem trySend_cases (self : UserIngress) (capacity : Nat) (message : UserMessage) :
    (∃ error, self.trySend capacity message = .error error) ∨
      (self.receiverAlive = true ∧
        self.trySend capacity message = .ok { self with queue := self.queue ++ [message] }) := by
  unfold trySend
  cases alive : self.receiverAlive with
  | false => exact .inl ⟨_, rfl⟩
  | true =>
      by_cases room : self.queue.length < capacity
      · exact .inr ⟨rfl, by simp [room]⟩
      · exact .inl ⟨.full, by simp [room]⟩

/-- Every action is one of these steps. -/
theorem step_cases (fires : self.step capacity action = some (next, out)) : self.Step out next := by
  cases action with
  | submit devices action user =>
      simp only [step, submit, Option.some.injEq] at fires
      split at fires
      · cases fires
        exact .refuse
      · cases fires
        exact .empty
      · cases fires
        exact .start
  | trySend request =>
      simp only [step, submitUpdate] at fires
      split at fires
      · next key keys action user found =>
          rcases trySend_cases { self with confirmations := self.confirmations + 1 } capacity
              ⟨some request, .userUpdate key action user self.confirmations⟩ with
            ⟨error, fails⟩ | ⟨alive, sends⟩
          · rw [fails] at fires
            cases fires
            exact .fail found
          · rw [sends] at fires
            have owner : ∀ other, some request = some other →
                (self.submissions.get? other).isSome = true := by
              rintro _ ⟨rfl⟩
              rw [found]
              rfl
            simp only at fires
            split at fires
            · cases fires
              refine .enqueue alive owner ?_ (by simp)
              intro other left
              rw [FiniteMap.get?_erase] at left
              split at left
              · cases left
              · exact left
            · cases fires
              refine .enqueue alive owner ?_ (by simp)
              intro other left
              rw [FiniteMap.get?_insert] at left
              split at left
              · next same => exact owner other (congrArg some same.symm)
              · exact left
      · cases fires
  | requestSnapshot =>
      simp only [step] at fires
      rcases trySend_cases { self with confirmations := self.confirmations + 1 } capacity
          ⟨none, .snapshotRequest self.confirmations⟩ with ⟨error, fails⟩ | ⟨alive, sends⟩
      · rw [fails] at fires
        cases fires
        exact .ignore
      · rw [sends] at fires
        cases fires
        exact .enqueue alive (by simp) (fun _ left => left) (by simp)
  | receive =>
      simp only [step, Option.ite_none_right_eq_some] at fires
      obtain ⟨alive, taken⟩ := fires
      split at taken
      · next message rest front =>
          cases taken
          exact .receive alive front
      · cases taken
  | dropReceiver =>
      cases fires
      exact .dropReceiver

/-- What a history says of the queue and of the requests. -/
structure Intake (events : List Event) (reached : UserIngress) : Prop where
  queued : ∀ message ∈ reached.queue, .enqueued message ∈ events
  taken : ∀ message, .received message ∈ events → .enqueued message ∈ events
  held : reached.receiverAlive = true → ∀ message, .enqueued message ∈ events →
    .received message ∈ events ∨ message ∈ reached.queue
  numbered : ∀ request, (reached.submissions.get? request).isSome = true →
    request < reached.requests
  ended : ∀ request status, .rejected request status ∈ events →
    request < reached.requests ∧ reached.submissions.get? request = none

theorem Intake.start : Intake [] new where
  queued := by simp [new]
  taken := by simp
  held := by simp
  numbered := by simp [new]
  ended := by simp

/-- A step that moves no message. -/
theorem Intake.quiet (intake : Intake events self)
    (silent : ∀ message, .enqueued message ∉ out ∧ .received message ∉ out)
    (queue : next.queue ⊆ self.queue)
    (held : next.receiverAlive = true → self.receiverAlive = true ∧ next.queue = self.queue)
    (numbered : ∀ request, (next.submissions.get? request).isSome = true →
      request < next.requests)
    (ended : ∀ request status, .rejected request status ∈ events ++ out →
      request < next.requests ∧ next.submissions.get? request = none) :
    Intake (events ++ out) next where
  queued := fun message member => List.mem_append_left _ (intake.queued message (queue member))
  taken := by
    intro message member
    rcases List.mem_append.mp member with early | late
    · exact List.mem_append_left _ (intake.taken message early)
    · exact absurd late (silent message).2
  held := by
    intro alive message member
    obtain ⟨before, same⟩ := held alive
    rw [same]
    rcases List.mem_append.mp member with early | late
    · exact (intake.held before message early).imp_left (List.mem_append_left _)
    · exact absurd late (silent message).1
  numbered := numbered
  ended := ended

/-- A request whose number is not given out yet is not being submitted. -/
theorem Intake.unopened (intake : Intake events self) (request : Nat)
    (later : self.requests ≤ request) : self.submissions.get? request = none := by
  rw [← Option.not_isSome_iff_eq_none]
  intro opened
  have below := intake.numbered request opened
  omega

/-- Submissions that go on were submissions before. -/
theorem Intake.fewer (intake : Intake events self) {submissions : FiniteMap Nat Submission}
    (within : ∀ request, (submissions.get? request).isSome = true →
      (self.submissions.get? request).isSome = true) :
    (∀ request, (submissions.get? request).isSome = true → request < self.requests) ∧
      ∀ request status, .rejected request status ∈ events →
        request < self.requests ∧ submissions.get? request = none := by
  refine ⟨fun request left => intake.numbered request (within request left), ?_⟩
  intro request status member
  obtain ⟨below, none⟩ := intake.ended request status member
  refine ⟨below, ?_⟩
  rw [← Option.not_isSome_iff_eq_none] at none ⊢
  exact fun left => none (within request left)

theorem Intake.step (intake : Intake events self) (step : self.Step out next) :
    Intake (events ++ out) next := by
  cases step with
  | refuse =>
      refine intake.quiet (by simp) (List.Subset.refl _) (fun alive => ⟨alive, rfl⟩) ?_ ?_
      · exact fun request left => Nat.lt_succ_of_lt (intake.numbered request left)
      · intro request status member
        rcases List.mem_append.mp member with early | late
        · obtain ⟨below, none⟩ := intake.ended request status early
          exact ⟨Nat.lt_succ_of_lt below, none⟩
        · obtain ⟨rfl, _⟩ := Event.rejected.inj (List.mem_singleton.mp late)
          exact ⟨Nat.lt_succ_self _, intake.unopened _ (Nat.le_refl _)⟩
  | empty =>
      refine intake.quiet (by simp) (List.Subset.refl _) (fun alive => ⟨alive, rfl⟩) ?_ ?_
      · exact fun request left => Nat.lt_succ_of_lt (intake.numbered request left)
      · intro request status member
        obtain ⟨below, none⟩ := intake.ended request status (by simpa using member)
        exact ⟨Nat.lt_succ_of_lt below, none⟩
  | start =>
      refine intake.quiet (by simp) (List.Subset.refl _) (fun alive => ⟨alive, rfl⟩) ?_ ?_
      · intro request left
        rw [FiniteMap.get?_insert] at left
        split at left
        · next same => exact same ▸ Nat.lt_succ_self _
        · exact Nat.lt_succ_of_lt (intake.numbered request left)
      · intro request status member
        obtain ⟨below, none⟩ := intake.ended request status (by simpa using member)
        refine ⟨Nat.lt_succ_of_lt below, ?_⟩
        rw [FiniteMap.get?_insert_of_ne _ _ (Nat.ne_of_lt below), none]
  | @fail request _ _ _ found =>
      have within : ∀ other, ((self.submissions.erase request).get? other).isSome = true →
          (self.submissions.get? other).isSome = true := by
        intro other left
        rw [FiniteMap.get?_erase] at left
        split at left
        · cases left
        · exact left
      obtain ⟨numbered, ended⟩ := intake.fewer within
      refine intake.quiet (by simp) (List.Subset.refl _) (fun alive => ⟨alive, rfl⟩) numbered ?_
      intro other status member
      rcases List.mem_append.mp member with early | late
      · exact ended other status early
      · obtain ⟨rfl, _⟩ := Event.rejected.inj (List.mem_singleton.mp late)
        exact ⟨intake.numbered other (by rw [found]; rfl), FiniteMap.get?_erase_self _ _⟩
  | @enqueue message tail submissions _ alive owner within tail_eq =>
      obtain ⟨numbered, ended⟩ := intake.fewer within
      have silent : ∀ event ∈ tail, ∀ other, event ≠ .enqueued other ∧ event ≠ .received other := by
        intro event member other
        obtain ⟨_, rfl⟩ := tail_eq event member
        simp
      refine ⟨?_, ?_, ?_, numbered, ?_⟩
      · intro other member
        rcases List.mem_append.mp member with early | late
        · exact List.mem_append_left _ (intake.queued other early)
        · obtain rfl := List.mem_singleton.mp late
          exact List.mem_append_right _ List.mem_cons_self
      · intro other member
        rcases List.mem_append.mp member with early | late
        · exact List.mem_append_left _ (intake.taken other early)
        · rcases List.mem_cons.mp late with same | inside
          · cases same
          · exact absurd rfl (silent _ inside other).2
      · intro _ other member
        rcases List.mem_append.mp member with early | late
        · exact (intake.held alive other early).imp (List.mem_append_left _)
            (List.mem_append_left _)
        · rcases List.mem_cons.mp late with same | inside
          · obtain rfl := Event.enqueued.inj same
            exact .inr (List.mem_append_right _ (List.mem_singleton_self _))
          · exact absurd rfl (silent _ inside other).1
      · intro other status member
        rcases List.mem_append.mp member with early | late
        · exact ended other status early
        · rcases List.mem_cons.mp late with same | inside
          · cases same
          · obtain ⟨_, same⟩ := tail_eq _ inside
            cases same
  | ignore =>
      refine intake.quiet (by simp) (List.Subset.refl _) (fun alive => ⟨alive, rfl⟩)
        intake.numbered ?_
      simpa using intake.ended
  | @receive message rest alive front =>
      refine ⟨?_, ?_, ?_, intake.numbered, ?_⟩
      · intro other member
        apply List.mem_append_left
        apply intake.queued other
        rw [front]
        exact List.mem_cons_of_mem _ member
      · intro other member
        rcases List.mem_append.mp member with early | late
        · exact List.mem_append_left _ (intake.taken other early)
        · obtain rfl := Event.received.inj (List.mem_singleton.mp late)
          apply List.mem_append_left
          apply intake.queued other
          rw [front]
          exact List.mem_cons_self
      · intro _ other member
        rcases intake.held alive other (by simpa using member) with taken | waiting
        · exact .inl (List.mem_append_left _ taken)
        · rw [front] at waiting
          rcases List.mem_cons.mp waiting with rfl | behind
          · exact .inl (List.mem_append_right _ (List.mem_singleton_self _))
          · exact .inr behind
      · simpa using intake.ended
  | dropReceiver =>
      refine intake.quiet (by simp) (List.nil_subset _) (by simp) intake.numbered ?_
      simpa using intake.ended

/-- The history and the state agree in every run. -/
theorem intake {admits : List Event → UserIngress → Action → Prop} {actions : List Action}
    (run : (machine capacity).Run admits new actions events self) : Intake events self :=
  run.history Intake Intake.start fun before _ fires => before.step (step_cases fires)

/-- No update of a request has been or will be handled. -/
def Unhandled (capacity : Nat) (events : List Event) (self : UserIngress) (request : Nat) : Prop :=
  ∀ actions more final, (machine capacity).Run Machine.Every self actions more final →
    ∀ input, .received ⟨some request, input⟩ ∉ events ++ more

/-- A running coordinator can take any message in its queue. -/
theorem receivable (alive : self.receiverAlive = true) {front rest : List UserMessage}
    (queue : self.queue = front ++ message :: rest) :
    ∃ actions more final, (machine capacity).Run Machine.Every self actions more final ∧
      .received message ∈ more := by
  have taken : ∀ {reached : UserIngress} {head tail}, reached.receiverAlive = true →
      reached.queue = head :: tail →
      (machine capacity).step reached .receive =
        some ({ reached with queue := tail }, [.received head]) := by
    intro reached head tail alive queue
    simp [machine, step, alive, queue]
  induction front generalizing self with
  | nil =>
      refine ⟨_, _, _, Machine.Run.refl.snoc trivial (taken alive queue), ?_⟩
      exact List.mem_singleton_self _
  | cons head front ih =>
      obtain ⟨actions, more, final, later, member⟩ :=
        @ih { self with queue := front ++ message :: rest } alive rfl
      have first : (machine capacity).Run Machine.Every self ([] ++ [.receive])
          ([] ++ [.received head]) { self with queue := front ++ message :: rest } :=
        .snoc .refl trivial (taken alive queue)
      exact ⟨_, _, _, first.append (fun _ _ _ _ admitted => admitted) later,
        List.mem_append_right _ member⟩

/-- A request that has ended enqueues nothing more. -/
theorem ended_enqueues_nothing {actions : List Action} {more : List Event} {final : UserIngress}
    (below : request < self.requests) (ended : self.submissions.get? request = none)
    (run : (machine capacity).Run Machine.Every self actions more final) (input : DomainInput) :
    .enqueued ⟨some request, input⟩ ∉ more := by
  have history := run.history (fun more reached => request < reached.requests ∧
    reached.submissions.get? request = none ∧
      ∀ input, .enqueued ⟨some request, input⟩ ∉ more) ⟨below, ended, by simp⟩ ?_
  · exact history.2.2 input
  · rintro past state action next out ⟨below, ended, silent⟩ _ fires
    have quiet : (∀ input, .enqueued ⟨some request, input⟩ ∉ out) →
        ∀ input, .enqueued ⟨some request, input⟩ ∉ past ++ out :=
      fun none input => List.not_mem_append (silent input) (none input)
    cases step_cases fires with
    | refuse | empty => exact ⟨Nat.lt_succ_of_lt below, ended, quiet (by simp)⟩
    | start =>
        refine ⟨Nat.lt_succ_of_lt below, ?_, quiet (by simp)⟩
        rw [FiniteMap.get?_insert_of_ne _ _ (Nat.ne_of_lt below), ended]
    | fail found =>
        refine ⟨below, ?_, quiet (by simp)⟩
        rw [FiniteMap.get?_erase]
        split
        · rfl
        · exact ended
    | enqueue alive owner within tail_eq =>
        refine ⟨below, ?_, quiet fun input member => ?_⟩
        · rw [← Option.not_isSome_iff_eq_none] at ended ⊢
          exact fun left => ended (within request left)
        · rcases List.mem_cons.mp member with same | inside
          · have opened := owner request (by rw [← Event.enqueued.inj same])
            rw [ended] at opened
            cases opened
          · obtain ⟨_, same⟩ := tail_eq _ inside
            cases same
    | ignore | receive | dropReceiver => exact ⟨below, ended, quiet (by simp)⟩

/-- A coordinator that stopped takes nothing more. -/
theorem stopped_receives_nothing {actions : List Action} {more : List Event} {final : UserIngress}
    (stopped : self.receiverAlive = false)
    (run : (machine capacity).Run Machine.Every self actions more final) (message : UserMessage) :
    .received message ∉ more := by
  have history := run.history (fun more reached => reached.receiverAlive = false ∧
    ∀ message, .received message ∉ more) ⟨stopped, by simp⟩ ?_
  · exact history.2 message
  · rintro past state action next out ⟨stopped, silent⟩ _ fires
    have quiet : (∀ message, .received message ∉ out) →
        ∀ message, .received message ∉ past ++ out :=
      fun none message => List.not_mem_append (silent message) (none message)
    cases step_cases fires with
    | enqueue alive | receive alive =>
        rw [stopped] at alive
        cases alive
    | dropReceiver => exact ⟨rfl, quiet (by simp)⟩
    | refuse | empty | start | fail | ignore => exact ⟨stopped, quiet (by simp)⟩

/-- A rejected request is without effect exactly if nothing of it was enqueued, or the
coordinator stopped before it took any of that. -/
theorem rejected_unhandled_iff {actions : List Action} {status : TonicStatus}
    (run : (machine capacity).Run Machine.Every new actions events self)
    (rejected : .rejected request status ∈ events) :
    Unhandled capacity events self request ↔
      (∀ input, .enqueued ⟨some request, input⟩ ∉ events) ∨
        (self.receiverAlive = false ∧ ∀ input, .received ⟨some request, input⟩ ∉ events) := by
  have intake := intake run
  constructor
  · intro unhandled
    have untaken : ∀ input, .received ⟨some request, input⟩ ∉ events := by
      intro input taken
      exact unhandled [] [] self .refl input (List.mem_append_left _ taken)
    cases alive : self.receiverAlive with
    | false => exact .inr ⟨rfl, untaken⟩
    | true =>
        refine .inl fun input enqueued => ?_
        rcases intake.held alive _ enqueued with taken | waiting
        · exact untaken input taken
        · obtain ⟨front, rest, queue⟩ := List.append_of_mem waiting
          obtain ⟨_, more, _, later, member⟩ := receivable alive queue
          exact unhandled _ more _ later input (List.mem_append_right _ member)
  · rintro (unsent | ⟨stopped, untaken⟩) actions more final later input member
    · have longer := run.append (fun _ _ _ _ admitted => admitted) later
      obtain ⟨below, ended⟩ := intake.ended request status rejected
      rcases List.mem_append.mp ((UserIngress.intake longer).taken _ member) with early | late
      · exact unsent input early
      · exact ended_enqueues_nothing below ended later input late
    · rcases List.mem_append.mp member with early | late
      · exact untaken input early
      · exact stopped_receives_nothing stopped later _ late

end UserIngress

end

section

attribute [local instance] asciiPlatform

namespace UserIngress

/-- What a full user queue answers. -/
def queueFull : TonicStatus := mapUserSendError .full

/-- Two acknowledgements find room for one update. -/
def crowdedRequests : List Action :=
  [.submit ["BEAM#Epics"] .acknowledge "operator", .trySend 0,
   .submit ["PUMP#Analog"] .acknowledge "operator", .trySend 1, .receive]

/-- The pump's request is refused by a full queue and stays without effect. -/
theorem rejected_unhandled_pump : ∃ final events,
    (machine 1).Run Machine.Every new crowdedRequests events final ∧
      .rejected 1 queueFull ∈ events ∧ Unhandled 1 events final 1 := by
  obtain ⟨final, events, run, check⟩ := run_of_check 1 crowdedRequests
    (fun _ events => decide (events =
      [.enqueued ⟨some 0, .userUpdate beam .acknowledge "operator" 0⟩, .awaiting 0,
        .rejected 1 queueFull, .received ⟨some 0, .userUpdate beam .acknowledge "operator" 0⟩]))
    (by decide)
  rw [decide_eq_true_eq] at check
  have rejected : .rejected 1 queueFull ∈ events := by simp [check]
  exact ⟨final, events, run, rejected,
    (rejected_unhandled_iff run rejected).mpr (.inl (by simp [check]))⟩

/-- One acknowledgement of two devices finds room for the first. -/
def splitRequest : List Action :=
  [.submit ["PUMP#Analog", "BEAM#Epics"] .acknowledge "operator", .trySend 0, .trySend 0, .receive]

/-- The request is rejected, and the coordinator handles its first update afterwards. -/
theorem rejected_handled : ∃ final,
    (machine 1).Run Machine.Every new splitRequest
      [.enqueued ⟨some 0, .userUpdate pump .acknowledge "operator" 0⟩, .rejected 0 queueFull,
        .received ⟨some 0, .userUpdate pump .acknowledge "operator" 0⟩] final := by
  obtain ⟨final, events, run, check⟩ := run_of_check 1 splitRequest
    (fun _ events => decide (events =
      [.enqueued ⟨some 0, .userUpdate pump .acknowledge "operator" 0⟩, .rejected 0 queueFull,
        .received ⟨some 0, .userUpdate pump .acknowledge "operator" 0⟩])) (by decide)
  rw [decide_eq_true_eq] at check
  exact ⟨final, check ▸ run⟩

end UserIngress

end

end AcornAlarms
