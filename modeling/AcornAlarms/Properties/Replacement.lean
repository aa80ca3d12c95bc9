import AcornAlarms.Engine.Coordinator
import AcornAlarms.Engine.WorkflowLoop
import AcornAlarms.Lanes.Refinement
import AcornAlarms.Library.History

/-!
# Replaced jobs

A reply names a key and no job. As long as no job arrives for a key whose last job is still
tracked, every reply is the tracked job's own; a reply to a replaced job drives the new one.
-/

namespace AcornAlarms

open Library

section

variable [Platform]

namespace WorkflowLoop

/-- No job arrives for a key whose last job is still tracked. -/
def Unreplaced (_ : List Event) (loop : WorkflowLoop) : Action → Prop
  | .job _ job => loop.handler.jobs.get? job.key = none
  | _ => True

/-- The outcome a job was reported with. -/
def reportOf (number : Nat) : Event → Option JobOutcome
  | .reported other outcome => if other = number then some outcome else none
  | _ => none

/-- A handler that treats every job alone: it neither panics nor overruns, reports a job once,
publishes it after its own command was accepted and commits it after its own publish succeeded. -/
structure Tolerant (events : List Event) : Prop where
  panicless : ∀ message, .panicked message ∉ events
  inOrder : ∀ key, .overran key ∉ events
  once : ∀ number, (events.filterMap (reportOf number)).length ≤ 1
  accepted : ∀ {before number publish after}, events = before ++ .published number publish :: after →
    .answered number true ∈ before ∧
      ∃ job, .arrived number job ∈ before ∧ publish = job.publishRequest
  committed : ∀ {before number job after},
    events = before ++ .reported number (.committed job) :: after →
      .returned number true ∈ before ∧ .arrived number job ∈ before

/-- What is known of a tracked job: it is the latest of its key, and nothing was reported. -/
structure Tracks (events : List Event) (loop : WorkflowLoop) (key : Key) (job : Job)
    (number : Nat) : Prop where
  latest : loop.latest.get? key = some number
  named : job.key = key
  arrived : .arrived number job ∈ events
  unreported : events.filterMap (reportOf number) = []

/-- Every tracked job waits for one reply, and every reply to come is a tracked job's own. -/
structure Serial (events : List Event) (loop : WorkflowLoop) : Prop where
  alive : loop.panicked = false
  tracked : ∀ {key tracked}, loop.handler.jobs.get? key = some tracked →
    ∃ number, Tracks events loop key tracked.job number
  commanded : ∀ {number input}, loop.commands.get? number = some input →
    ∃ job, loop.handler.jobs.get? input.key = some ⟨job, 1⟩ ∧
      loop.latest.get? input.key = some number
  publishing : ∀ {number publish}, loop.publishes.get? number = some publish →
    ∃ job, loop.handler.jobs.get? publish.detailsRef.key = some ⟨job, 2⟩ ∧
      loop.latest.get? publish.detailsRef.key = some number
  apart : ∀ {one other number}, loop.latest.get? one = some number →
    loop.latest.get? other = some number → one = other
  bounded : ∀ {key number}, loop.latest.get? key = some number → number < loop.jobs
  fresh : ∀ number, loop.jobs ≤ number → events.filterMap (reportOf number) = []
  tolerant : Tolerant events

theorem Serial.start : Serial [] new where
  alive := rfl
  tracked := by simp [new, WorkflowHandler.new]
  commanded := by simp [new]
  publishing := by simp [new]
  apart := by simp [new]
  bounded := by simp [new]
  fresh := by simp
  tolerant := by constructor <;> simp

/-- What is reported of a job, if the coordinator still listens. -/
def Reports (number : Nat) (outcome : JobOutcome) (out : List Event) : Prop :=
  out = [] ∨ out = [.reported number outcome]

/-- The key's job afterwards; the other keys keep theirs. -/
def Becomes (before after : WorkflowHandler) (key : Key) (tracked : Option TrackedJob) : Prop :=
  ∀ other, after.jobs.get? other = if other = key then tracked else before.jobs.get? other

variable {self next final : WorkflowLoop} {events out : List Event} {action : Action}

/-- What the handler does as long as no tracked job is replaced. -/
inductive Step (self : WorkflowLoop) : List Event → WorkflowLoop → Prop where
  | start {job handler} (idle : self.handler.jobs.get? job.key = none)
      (becomes : Becomes self.handler handler job.key (some ⟨job, 1⟩)) :
      Step self [.arrived self.jobs job, .commanded self.jobs ⟨job.key, job.status.wake⟩]
        { self with
          handler
          jobs := self.jobs + 1
          latest := self.latest.insert job.key self.jobs
          commands := self.commands.insert self.jobs ⟨job.key, job.status.wake⟩ }
  | refuse {job handler reports} (idle : self.handler.jobs.get? job.key = none)
      (becomes : Becomes self.handler handler job.key none)
      (reported : Reports self.jobs (.failed job) reports) :
      Step self (.arrived self.jobs job :: reports)
        { self with
          handler
          jobs := self.jobs + 1
          latest := self.latest.insert job.key self.jobs }
  | advance {number job handler} (found : self.handler.jobs.get? job.key = some ⟨job, 1⟩)
      (latest : self.latest.get? job.key = some number)
      (becomes : Becomes self.handler handler job.key (some ⟨job, 2⟩)) :
      Step self [.answered number true, .published number job.publishRequest]
        { self with
          handler
          commands := self.commands.erase number
          publishes := self.publishes.insert number job.publishRequest }
  | fail {number job handler accepted reports}
      (found : self.handler.jobs.get? job.key = some ⟨job, 1⟩)
      (latest : self.latest.get? job.key = some number)
      (becomes : Becomes self.handler handler job.key none)
      (reported : Reports number (.failed job) reports) :
      Step self (.answered number accepted :: reports)
        { self with handler, commands := self.commands.erase number }
  | settle {number job delivered handler reports}
      (found : self.handler.jobs.get? job.key = some ⟨job, 2⟩)
      (latest : self.latest.get? job.key = some number)
      (becomes : Becomes self.handler handler job.key none)
      (reported : Reports number (job.outcome delivered) reports) :
      Step self (.returned number delivered :: reports)
        { self with handler, publishes := self.publishes.erase number }
  | wake {woken} (wakes : ∀ event ∈ woken, ∃ key, event = .woke key) : Step self woken self

/-- An outcome is reported as one of the latest job of its key. -/
theorem sendAll_sendOutcome (ports : WorkflowPorts) {job : Job} {number : Nat}
    (latest : self.latest.get? job.key = some number) {outcome : JobOutcome}
    (of : outcome = .failed job ∨ outcome = .committed job) :
    ∃ reports, self.sendAll (WorkflowHandler.sendOutcome ports outcome) = (self, reports) ∧
      Reports number outcome reports := by
  unfold WorkflowHandler.sendOutcome
  split
  · refine ⟨_, ?_, .inr rfl⟩
    rcases of with rfl | rfl <;> simp [sendAll, send, latest]
  · exact ⟨[], rfl, .inl rfl⟩

/-- A job's next effect is sent, or the job is given up. -/
theorem finish_advanced {ports : WorkflowPorts} {job : Job} {place number : Nat}
    {message : WorkflowSend} {handler : WorkflowHandler} {result : Except String Worked}
    (advanced : handler.Advanced ports job place message result)
    (latest : self.latest.get? job.key = some number) :
    ∃ after, (Becomes handler after job.key (some ⟨job, place⟩) ∧
        self.finish result = { self with handler := after }.sendAll [message]) ∨
      (Becomes handler after job.key none ∧ ∃ reports, Reports number (.failed job) reports ∧
        self.finish result = ({ self with handler := after }, reports)) := by
  cases advanced with
  | @sent after becomes => exact ⟨after, .inl ⟨becomes, rfl⟩⟩
  | @failed after becomes =>
      obtain ⟨reports, sent, reported⟩ := @sendAll_sendOutcome _ { self with handler := after }
        ports job number latest _ (.inl rfl)
      refine ⟨after, .inr ⟨becomes, reports, reported, ?_⟩⟩
      simp only [finish, sent]
      rfl

/-- Every action is one of these steps. -/
theorem step_cases (serial : Serial events self) (unreplaced : Unreplaced events self action)
    (fires : self.step action = some (next, out)) : self.Step out next := by
  simp only [step, Option.ite_none_left_eq_some] at fires
  obtain ⟨_, fires⟩ := fires
  cases action with
  | job ports job =>
      let received : WorkflowLoop := { self with
        jobs := self.jobs + 1
        latest := self.latest.insert job.key self.jobs }
      have latest : received.latest.get? job.key = some self.jobs :=
        FiniteMap.get?_insert_self _ _ _
      obtain ⟨after, ⟨becomes, sent⟩ | ⟨becomes, reports, reported, sent⟩⟩ :=
        finish_advanced (self.handler.handleNewJob_advanced ports job) latest
      · simp only [receive, received] at sent fires
        rw [sent] at fires
        simp only [sendAll, send, FiniteMap.get?_insert_self] at fires
        cases fires
        exact .start unreplaced becomes
      · simp only [receive, received] at sent fires
        rw [sent] at fires
        cases fires
        exact .refuse unreplaced becomes reported
  | answer ports number accepted =>
      obtain ⟨input, waits, handled⟩ := Option.map_eq_some_iff.mp fires
      obtain ⟨job, found, latest⟩ := serial.commanded waits
      obtain ⟨_, tracks⟩ := serial.tracked found
      have named : job.key = input.key := tracks.named
      rw [← named] at found latest
      cases accepted with
      | true =>
          let answered : WorkflowLoop := { self with commands := self.commands.erase number }
          have kept : answered.latest.get? job.key = some number := latest
          obtain ⟨after, ⟨becomes, sent⟩ | ⟨becomes, reports, reported, sent⟩⟩ :=
            finish_advanced (WorkflowHandler.accepted_advanced ports found) kept
          · simp only [if_true, ← named, answered] at sent handled
            rw [sent] at handled
            simp only [sendAll, send, Job.publishRequest_details, Job.publishDetails,
              latest] at handled
            cases handled
            exact .advance found latest becomes
          · simp only [if_true, ← named, answered] at sent handled
            rw [sent] at handled
            cases handled
            exact .fail found latest becomes reported
      | false =>
          have fails := WorkflowHandler.sendFailed_of ports found
          let answered : WorkflowLoop := { self with
            handler := ⟨self.handler.jobs.erase job.key⟩
            commands := self.commands.erase number }
          have kept : answered.latest.get? job.key = some number := latest
          obtain ⟨reports, sent, reported⟩ := sendAll_sendOutcome ports kept (.inl rfl)
          simp only [Bool.false_eq_true, if_false, ← named, WorkflowHandler.handleSnoozeResult,
            fails, finish, answered] at sent handled
          rw [sent] at handled
          cases handled
          exact .fail found latest (FiniteMap.get?_erase _ _) reported
  | result ports number delivered =>
      obtain ⟨publish, waits, handled⟩ := Option.map_eq_some_iff.mp fires
      obtain ⟨job, found, latest⟩ := serial.publishing waits
      obtain ⟨_, tracks⟩ := serial.tracked found
      have named : job.key = publish.detailsRef.key := tracks.named
      rw [← named] at found latest
      have settles := WorkflowHandler.dispatchPublishResult_of ports
        (show self.handler.jobs.get? (SymmetricalResult.of delivered job.key).intoInner = _ by
          rw [SymmetricalResult.intoInner_of, found])
      let returned : WorkflowLoop := { self with
        handler := ⟨self.handler.jobs.erase job.key⟩
        publishes := self.publishes.erase number }
      have kept : returned.latest.get? job.key = some number := latest
      have kind : job.outcome delivered = .failed job ∨ job.outcome delivered = .committed job := by
        cases delivered
        · exact .inl rfl
        · exact .inr rfl
      obtain ⟨reports, sent, reported⟩ := sendAll_sendOutcome ports kept kind
      simp only [← named, settles, finish, SymmetricalResult.intoInner_of,
        SymmetricalResult.isOk_of, returned] at sent handled
      rw [sent] at handled
      cases handled
      exact .settle found latest (FiniteMap.get?_erase _ _) reported
  | expired ports key =>
      simp only [receive, finish, WorkflowHandler.handleSnoozeResult,
        WorkflowHandler.sendOutcome] at fires
      split at fires
      · cases fires
        exact .wake fun event member => ⟨key, List.mem_singleton.mp member⟩
      · cases fires
        exact .wake (by simp [sendAll])

/-- A tolerant history goes on with events of one job. -/
theorem Tolerant.append (tolerant : Tolerant events)
    (quiet : ∀ event ∈ out, (∀ message, event ≠ .panicked message) ∧ ∀ key, event ≠ .overran key)
    (once : ∀ number, out.filterMap (reportOf number) = [] ∨
      events.filterMap (reportOf number) = [] ∧ (out.filterMap (reportOf number)).length ≤ 1)
    (accepted : ∀ {before number publish after},
      out = before ++ .published number publish :: after →
        .answered number true ∈ events ++ before ∧
          ∃ job, .arrived number job ∈ events ++ before ∧ publish = job.publishRequest)
    (committed : ∀ {before number job after},
      out = before ++ .reported number (.committed job) :: after →
        .returned number true ∈ events ++ before ∧ .arrived number job ∈ events ++ before) :
    Tolerant (events ++ out) := by
  constructor
  · intro message
    exact List.not_mem_append (tolerant.panicless message) fun late =>
      (quiet _ late).1 message rfl
  · intro key
    exact List.not_mem_append (tolerant.inOrder key) fun late => (quiet _ late).2 key rfl
  · intro number
    rw [List.filterMap_append]
    rcases once number with silent | ⟨unreported, single⟩
    · rw [silent, List.append_nil]
      exact tolerant.once number
    · rw [unreported, List.nil_append]
      exact single
  · intro before number publish after split
    rcases split_append split with ⟨rest, old, _⟩ | ⟨early, rfl, new⟩
    · exact tolerant.accepted old
    · exact accepted new
  · intro before number job after split
    rcases split_append split with ⟨rest, old, _⟩ | ⟨early, rfl, new⟩
    · exact tolerant.committed old
    · exact committed new

/-- What is known of a tracked job while other jobs go on. -/
theorem Tracks.keep {key : Key} {job : Job} {number : Nat} (tracks : Tracks events self key job number)
    (latest : next.latest.get? key = self.latest.get? key)
    (silent : out.filterMap (reportOf number) = []) : Tracks (events ++ out) next key job number where
  latest := latest.trans tracks.latest
  named := tracks.named
  arrived := List.mem_append_left _ tracks.arrived
  unreported := by rw [List.filterMap_append, tracks.unreported, silent, List.append_nil]

/-- One key goes on with its latest job, and the others stay as they are. -/
theorem Serial.change (serial : Serial events self) {key : Key} {number : Nat}
    {value : Option TrackedJob} (alive : next.panicked = self.panicked)
    (becomes : Becomes self.handler next.handler key value)
    (latest : ∀ other, next.latest.get? other =
      if other = key then some number else self.latest.get? other)
    (own : ∀ {tracked other}, self.handler.jobs.get? key = some tracked →
      self.latest.get? key = some other → other = number)
    (apart : ∀ {other}, self.latest.get? other = some number → other = key)
    (commands : ∀ {other input}, next.commands.get? other = some input →
      (other = number ∧ input.key = key ∧ ∃ job, value = some ⟨job, 1⟩) ∨
        (other ≠ number ∧ self.commands.get? other = some input))
    (publishes : ∀ {other publish}, next.publishes.get? other = some publish →
      (other = number ∧ publish.detailsRef.key = key ∧ ∃ job, value = some ⟨job, 2⟩) ∨
        (other ≠ number ∧ self.publishes.get? other = some publish))
    (jobs : self.jobs ≤ next.jobs) (below : number < next.jobs)
    (tracks : ∀ {tracked}, value = some tracked →
      Tracks (events ++ out) next key tracked.job number)
    (silent : ∀ other, other ≠ number → out.filterMap (reportOf other) = [])
    (tolerant : Tolerant (events ++ out)) : Serial (events ++ out) next := by
  constructor
  · rw [alive, serial.alive]
  · intro other tracked found
    rw [becomes] at found
    split at found
    · next same =>
        subst same
        exact ⟨number, tracks found⟩
    · next different =>
        obtain ⟨otherNumber, known⟩ := serial.tracked found
        refine ⟨otherNumber, known.keep ?_ (silent otherNumber ?_)⟩
        · rw [latest, if_neg different]
        · rintro rfl
          exact different (apart known.latest)
  · intro other input waits
    rw [becomes, latest]
    rcases commands waits with ⟨rfl, rfl, job, rfl⟩ | ⟨different, before⟩
    · exact ⟨job, by simp, by simp⟩
    · obtain ⟨job, found, named⟩ := serial.commanded before
      have apartKey : input.key ≠ key := by
        intro same
        rw [same] at found named
        exact different (own found named)
      rw [if_neg apartKey, if_neg apartKey]
      exact ⟨job, found, named⟩
  · intro other publish waits
    rw [becomes, latest]
    rcases publishes waits with ⟨rfl, rfl, job, rfl⟩ | ⟨different, before⟩
    · exact ⟨job, by simp, by simp⟩
    · obtain ⟨job, found, named⟩ := serial.publishing before
      have apartKey : publish.detailsRef.key ≠ key := by
        intro same
        rw [same] at found named
        exact different (own found named)
      rw [if_neg apartKey, if_neg apartKey]
      exact ⟨job, found, named⟩
  · intro one other shared first second
    rw [latest] at first second
    split at first <;> split at second
    · next left right => rw [left, right]
    · next left _ =>
        rw [← Option.some.inj first] at second
        rw [left, apart second]
    · next _ right =>
        rw [← Option.some.inj second] at first
        rw [right, apart first]
    · exact serial.apart first second
  · intro other otherNumber named
    rw [latest] at named
    split at named
    · rw [← Option.some.inj named]
      exact below
    · exact Nat.lt_of_lt_of_le (serial.bounded named) jobs
  · intro other above
    rw [List.filterMap_append, serial.fresh other (Nat.le_trans jobs above),
      silent other (by omega)]
    rfl
  · exact tolerant

variable {number : Nat} {outcome : JobOutcome} {reports : List Event} {head : Event}

/-- The start of an iteration: a message is received. -/
def Received (head : Event) : Prop :=
  (∃ number job, head = .arrived number job) ∨ (∃ number accepted, head = .answered number accepted) ∨
    ∃ number delivered, head = .returned number delivered

theorem Received.reportOf (received : Received head) (number : Nat) :
    reportOf number head = none := by
  rcases received with ⟨_, _, rfl⟩ | ⟨_, _, rfl⟩ | ⟨_, _, rfl⟩ <;> rfl

/-- The job is named in what is reported, and no other. -/
theorem Reports.silent (reported : Reports number outcome reports) (received : Received head)
    {other : Nat} (different : other ≠ number) :
    (head :: reports).filterMap (WorkflowLoop.reportOf other) = [] := by
  rw [List.filterMap_cons, received.reportOf]
  rcases reported with rfl | rfl
  · rfl
  · simp [WorkflowLoop.reportOf, Ne.symm different]

/-- A message ends a job. -/
theorem Tolerant.report (tolerant : Tolerant events) (received : Received head)
    (reported : Reports number outcome reports)
    (unreported : events.filterMap (reportOf number) = [])
    (committed : ∀ job, outcome = .committed job →
      .returned number true ∈ events ++ [head] ∧ .arrived number job ∈ events ++ [head]) :
    Tolerant (events ++ head :: reports) := by
  apply tolerant.append
  · intro event member
    rcases List.mem_cons.mp member with rfl | late
    · rcases received with ⟨_, _, rfl⟩ | ⟨_, _, rfl⟩ | ⟨_, _, rfl⟩ <;> simp
    · rcases reported with rfl | rfl
      · cases late
      · obtain rfl := List.mem_singleton.mp late
        simp
  · intro other
    by_cases same : other = number
    · subst same
      refine .inr ⟨unreported, ?_⟩
      rw [List.filterMap_cons, received.reportOf]
      rcases reported with rfl | rfl <;> simp [reportOf]
    · exact .inl (reported.silent received same)
  · intro before other publish after split
    rcases reported with rfl | rfl
    · obtain ⟨_, rfl⟩ := split_singleton split
      rcases received with ⟨_, _, same⟩ | ⟨_, _, same⟩ | ⟨_, _, same⟩ <;> cases same
    · rcases split_pair split with ⟨_, rfl⟩ | ⟨_, same⟩
      · rcases received with ⟨_, _, same⟩ | ⟨_, _, same⟩ | ⟨_, _, same⟩ <;> cases same
      · cases same
  · intro before other job after split
    rcases reported with rfl | rfl
    · obtain ⟨_, rfl⟩ := split_singleton split
      rcases received with ⟨_, _, same⟩ | ⟨_, _, same⟩ | ⟨_, _, same⟩ <;> cases same
    · rcases split_pair split with ⟨_, rfl⟩ | ⟨rfl, same⟩
      · rcases received with ⟨_, _, same⟩ | ⟨_, _, same⟩ | ⟨_, _, same⟩ <;> cases same
      · cases same
        exact committed job rfl

/-- The tracked job of a key and its number belong together. -/
theorem Serial.owner (serial : Serial events self) {job : Job} {place : Nat}
    (found : self.handler.jobs.get? job.key = some ⟨job, place⟩)
    (latest : self.latest.get? job.key = some number) :
    Tracks events self job.key job number ∧ number < self.jobs := by
  obtain ⟨other, tracks⟩ := serial.tracked found
  obtain rfl := Option.some.inj (tracks.latest.symm.trans latest)
  exact ⟨tracks, serial.bounded latest⟩

/-- The latest job of a key stays it while its stage changes. -/
theorem latest_kept {key : Key} (latest : self.latest.get? key = some number) (other : Key) :
    self.latest.get? other = if other = key then some number else self.latest.get? other := by
  split
  · next same => rw [same, latest]
  · rfl

/-- A reply ends the tracked job of a key. -/
theorem Serial.release (serial : Serial events self) {job : Job} {place : Nat}
    (found : self.handler.jobs.get? job.key = some ⟨job, place⟩)
    (latest : self.latest.get? job.key = some number)
    (becomes : Becomes self.handler next.handler job.key none)
    (same : next.panicked = self.panicked ∧ next.jobs = self.jobs ∧ next.latest = self.latest)
    (commands : ∀ {other input}, next.commands.get? other = some input →
      other ≠ number ∧ self.commands.get? other = some input)
    (publishes : ∀ {other publish}, next.publishes.get? other = some publish →
      other ≠ number ∧ self.publishes.get? other = some publish)
    (received : Received head) (reported : Reports number outcome reports)
    (committed : outcome = .committed job → .returned number true ∈ events ++ [head])
    (of : ∀ other, outcome = .committed other → other = job) :
    Serial (events ++ head :: reports) next := by
  obtain ⟨tracks, below⟩ := serial.owner found latest
  obtain ⟨alive, jobs, kept⟩ := same
  have unchanged : ∀ other, next.latest.get? other =
      if other = job.key then some number else self.latest.get? other := by
    rw [kept]
    exact latest_kept latest
  refine serial.change alive becomes unchanged ?_ ?_ ?_ ?_ (Nat.le_of_eq jobs.symm) ?_ ?_ ?_ ?_
  · intro _ other _ named
    exact Option.some.inj (named.symm.trans latest)
  · exact fun named => serial.apart named latest
  · exact fun waits => .inr (commands waits)
  · exact fun waits => .inr (publishes waits)
  · rw [jobs]
    exact below
  · simp
  · exact fun other different => reported.silent received different
  · apply serial.tolerant.report received reported tracks.unreported
    intro other commits
    obtain rfl := of other commits
    exact ⟨committed commits, List.mem_append_left _ tracks.arrived⟩

/-- A job arrives for an idle key. -/
theorem Serial.arrive (serial : Serial events self) {job : Job} {value : Option TrackedJob}
    {tail : List Event} (idle : self.handler.jobs.get? job.key = none)
    (becomes : Becomes self.handler next.handler job.key value)
    (same : next.panicked = self.panicked ∧ next.jobs = self.jobs + 1 ∧
      next.latest = self.latest.insert job.key self.jobs ∧ next.publishes = self.publishes)
    (commands : ∀ {other input}, next.commands.get? other = some input →
      (other = self.jobs ∧ input.key = job.key ∧ ∃ job, value = some ⟨job, 1⟩) ∨
        (other ≠ self.jobs ∧ self.commands.get? other = some input))
    (tracks : ∀ {tracked}, value = some tracked → tracked.job = job ∧
      (Event.arrived self.jobs job :: tail).filterMap (reportOf self.jobs) = [])
    (silent : ∀ other, other ≠ self.jobs →
      (Event.arrived self.jobs job :: tail).filterMap (reportOf other) = [])
    (tolerant : Tolerant (events ++ .arrived self.jobs job :: tail)) :
    Serial (events ++ .arrived self.jobs job :: tail) next := by
  obtain ⟨alive, jobs, latest, kept⟩ := same
  refine serial.change alive becomes ?_ ?_ ?_ commands ?_ ?_ ?_ ?_ silent tolerant
  · intro other
    rw [latest, FiniteMap.get?_insert]
  · intro tracked _ found
    rw [idle] at found
    cases found
  · intro other named
    exact absurd (serial.bounded named) (Nat.lt_irrefl _)
  · intro other publish waits
    rw [kept] at waits
    refine .inr ⟨?_, waits⟩
    rintro rfl
    obtain ⟨_, _, named⟩ := serial.publishing waits
    exact absurd (serial.bounded named) (Nat.lt_irrefl _)
  · omega
  · omega
  · intro tracked known
    obtain ⟨rfl, unreported⟩ := tracks known
    constructor
    · rw [latest, FiniteMap.get?_insert_self]
    · rfl
    · simp
    · rw [List.filterMap_append, serial.fresh _ (Nat.le_refl _), unreported]
      rfl

theorem Serial.step (serial : Serial events self) (step : self.Step out next) :
    Serial (events ++ out) next := by
  cases step with
  | @start job handler idle becomes =>
      refine serial.arrive idle becomes ⟨rfl, rfl, rfl, rfl⟩ ?_ ?_ ?_ ?_
      · intro other input waits
        rw [FiniteMap.get?_insert] at waits
        split at waits
        · next same =>
            obtain rfl := Option.some.inj waits
            exact .inl ⟨same, rfl, job, rfl⟩
        · next different => exact .inr ⟨different, waits⟩
      · intro tracked same
        obtain rfl := Option.some.inj same
        exact ⟨rfl, by simp [reportOf]⟩
      · intro other _
        simp [reportOf]
      · apply serial.tolerant.append
        · simp
        · intro other
          exact .inl (by simp [reportOf])
        · intro before other publish after split
          rcases split_pair split with ⟨_, same⟩ | ⟨_, same⟩ <;> cases same
        · intro before other job after split
          rcases split_pair split with ⟨_, same⟩ | ⟨_, same⟩ <;> cases same
  | @refuse job handler reports idle becomes reported =>
      have received : Received (.arrived self.jobs job) := .inl ⟨_, _, rfl⟩
      refine serial.arrive idle becomes ⟨rfl, rfl, rfl, rfl⟩ ?_ (by simp) ?_ ?_
      · intro other input waits
        refine .inr ⟨?_, waits⟩
        rintro rfl
        obtain ⟨_, _, named⟩ := serial.commanded waits
        exact absurd (serial.bounded named) (Nat.lt_irrefl _)
      · exact fun other different => reported.silent received different
      · exact serial.tolerant.report received reported (serial.fresh _ (Nat.le_refl _)) (by simp)
  | @advance number job handler found latest becomes =>
      obtain ⟨tracks, below⟩ := serial.owner found latest
      refine serial.change rfl becomes (latest_kept latest) ?_ ?_ ?_ ?_ (Nat.le_refl _) below
        ?_ ?_ ?_
      · intro _ other _ named
        exact Option.some.inj (named.symm.trans latest)
      · exact fun named => serial.apart named latest
      · intro other input waits
        rw [FiniteMap.get?_erase] at waits
        split at waits
        · cases waits
        · next different => exact .inr ⟨different, waits⟩
      · intro other publish waits
        rw [FiniteMap.get?_insert] at waits
        split at waits
        · next same =>
            obtain rfl := Option.some.inj waits
            exact .inl ⟨same, by rw [Job.publishRequest_details]; rfl, job, rfl⟩
        · next different => exact .inr ⟨different, waits⟩
      · intro tracked same
        obtain rfl := Option.some.inj same
        exact tracks.keep rfl (by simp [reportOf])
      · intro other _
        simp [reportOf]
      · apply serial.tolerant.append
        · simp
        · intro other
          exact .inl (by simp [reportOf])
        · intro before other publish after split
          rcases split_pair split with ⟨_, same⟩ | ⟨rfl, same⟩
          · cases same
          · cases same
            refine ⟨by simp, job, ?_, rfl⟩
            exact List.mem_append_left _ tracks.arrived
        · intro before other job after split
          rcases split_pair split with ⟨_, same⟩ | ⟨_, same⟩ <;> cases same
  | @fail number job handler accepted reports found latest becomes reported =>
      have received : Received (.answered number accepted) := .inr (.inl ⟨_, _, rfl⟩)
      refine serial.release found latest becomes ⟨rfl, rfl, rfl⟩ ?_ ?_ received reported (by simp)
        (by simp)
      · intro other input waits
        rw [FiniteMap.get?_erase] at waits
        split at waits
        · cases waits
        · next different => exact ⟨different, waits⟩
      · intro other publish waits
        refine ⟨?_, waits⟩
        rintro rfl
        obtain ⟨_, publishing, named⟩ := serial.publishing waits
        rw [serial.apart named latest, found] at publishing
        cases publishing
  | @settle number job delivered handler reports found latest becomes reported =>
      have received : Received (.returned number delivered) := .inr (.inr ⟨_, _, rfl⟩)
      refine serial.release found latest becomes ⟨rfl, rfl, rfl⟩ ?_ ?_ received reported ?_ ?_
      · intro other input waits
        refine ⟨?_, waits⟩
        rintro rfl
        obtain ⟨_, commanded, named⟩ := serial.commanded waits
        rw [serial.apart named latest, found] at commanded
        cases commanded
      · intro other publish waits
        rw [FiniteMap.get?_erase] at waits
        split at waits
        · cases waits
        · next different => exact ⟨different, waits⟩
      · cases delivered <;> simp [Job.outcome]
      · cases delivered <;> simp [Job.outcome]
  | wake wakes =>
      have quiet : ∀ number, out.filterMap (reportOf number) = [] := by
        intro number
        rw [List.filterMap_eq_nil_iff]
        intro event member
        obtain ⟨_, rfl⟩ := wakes event member
        rfl
      have absent : ∀ {event before after}, out = before ++ event :: after →
          ∃ key, event = .woke key := by
        intro event before after split
        apply wakes
        rw [split]
        simp
      refine { serial with
        tracked := ?_, fresh := ?_, tolerant := ?_ }
      · intro key tracked found
        obtain ⟨number, tracks⟩ := serial.tracked found
        exact ⟨number, tracks.keep rfl (quiet number)⟩
      · intro number above
        rw [List.filterMap_append, serial.fresh number above, quiet]
        rfl
      · apply serial.tolerant.append
        · intro event member
          obtain ⟨_, rfl⟩ := wakes event member
          simp
        · exact fun number => .inl (quiet number)
        · intro before number publish after split
          obtain ⟨_, same⟩ := absent split
          cases same
        · intro before number job after split
          obtain ⟨_, same⟩ := absent split
          cases same

/-- In every run in which no job arrives for a key whose last job is still tracked, the handler
treats every job alone. -/
theorem unreplaced_tolerant {actions : List Action}
    (run : machine.Run Unreplaced new actions events final) :
    final.panicked = false ∧ Tolerant events := by
  have serial := run.history Serial Serial.start fun before admitted fires =>
    before.step (step_cases before admitted fires)
  exact ⟨serial.alive, serial.tolerant⟩

end WorkflowLoop

/-- Behind the coordinator no job arrives for a key whose last job is still tracked. -/
theorem Pipeline.job_unreplaced {admits : List Event → Pipeline → Action → Prop}
    {hydratedStatuses : FiniteMap Key Status} {actions : List Action} {events : List Event}
    {pipeline : Pipeline} {job : Job} {rest : List Job}
    (run : machine.Run admits (.start hydratedStatuses) actions events pipeline)
    (queue : pipeline.jobs = job :: rest) : pipeline.handler.jobs.get? job.key = none := by
  obtain ⟨lanes, refines⟩ := (Refines.initial hydratedStatuses).run run
  rw [(refines.occupies job.key).tracked, (refines.job_arrived queue).1]
  rfl

end

section

attribute [local instance] asciiPlatform

/-- An operator's job for a key. -/
def jobOf (id : Nat) (key : Key) (action : UserAction) : Job :=
  ⟨id, key, buildUserStatus key action "operator" 0, true⟩

namespace WorkflowLoop

/-- Two jobs for the pump, one after the other, beside one for the beam. -/
def jobsInTurn : List Action :=
  [.job .alive (jobOf 1 pump .acknowledge), .job .alive (jobOf 2 beam .acknowledge),
   .answer .alive 0 true, .answer .alive 1 false, .result .alive 0 true,
   .job .alive (jobOf 3 pump .activate), .expired .alive pump, .answer .alive 2 true]

/-- Whether an action is no job, or one for a key that has none. -/
def untracked (loop : WorkflowLoop) : Action → Bool
  | .job _ job => decide (loop.handler.jobs.get? job.key = none)
  | _ => true

theorem unreplaced_tolerant_pump : ∃ final events,
    machine.Run Unreplaced new jobsInTurn events final ∧
      .reported 0 (.committed (jobOf 1 pump .acknowledge)) ∈ events ∧ Tolerant events := by
  have sound : ∀ past loop action, untracked loop action = true →
      Unreplaced past loop action := by
    intro past loop action allowed
    cases action with
    | job => simpa [untracked, Unreplaced] using allowed
    | answer | result | expired => trivial
  obtain ⟨final, events, run, check⟩ := run_of_check Unreplaced untracked sound jobsInTurn
    (fun _ events => decide
      (.reported 0 (.committed (jobOf 1 pump .acknowledge)) ∈ events)) (by decide)
  exact ⟨final, events, run, of_decide_eq_true check, (unreplaced_tolerant run).2⟩

/-- A second job for the pump comes while the first one waits for the scheduler. -/
def replacedJob : List Action :=
  [.job .alive (jobOf 1 pump .acknowledge), .job .alive (jobOf 2 pump .activate),
   .answer .alive 0 true, .answer .alive 1 true, .result .alive 1 true]

/-- The first answer publishes the second job, its own answer overruns it, and the result of its
publish request finds no job. -/
def replacedHistory : List Event :=
  [.arrived 0 (jobOf 1 pump .acknowledge), .commanded 0 ⟨pump, none⟩,
   .arrived 1 (jobOf 2 pump .activate), .commanded 1 ⟨pump, none⟩,
   .answered 0 true, .published 1 (jobOf 2 pump .activate).publishRequest,
   .answered 1 true, .overran pump, .reported 1 (.failed (jobOf 2 pump .activate)),
   .returned 1 true, .panicked "Every key must have an associated job"]

/-- A replaced job's answer is taken for the new job's. -/
theorem replaced_panics :
    (∃ final, machine.Run Machine.Every new replacedJob replacedHistory final ∧
      final.panicked = true) ∧ ¬ Tolerant replacedHistory := by
  constructor
  · obtain ⟨final, events, run, check⟩ := run_of_check Machine.Every (fun _ _ => true)
      (fun _ _ _ _ => trivial) replacedJob
      (fun final events => decide (events = replacedHistory) && final.panicked) (by decide)
    simp only [Bool.and_eq_true, decide_eq_true_eq] at check
    exact ⟨final, check.1 ▸ run, check.2⟩
  · exact fun tolerant => tolerant.inOrder pump (by simp [replacedHistory])

end WorkflowLoop

end

end AcornAlarms
