import AcornAlarms.Lanes.Ledger
import AcornAlarms.Library.History

/-!
# What happened to the job on a lane

The stage of a key tells what the history holds since its job was dispatched: the
job is the last one dispatched for the key, past the scheduler its command was
accepted, and past a successful publish its status was published.
-/

namespace AcornAlarms

open Library

variable [Platform]

/-- The job an event dispatches for a key. -/
def Event.dispatch? (key : Key) : Event → Option Job
  | .dispatched job => if job.key = key then some job else none
  | _ => none

/-- The job last dispatched for a key. -/
def lastDispatched (key : Key) (past : List Event) : Option Job := latest (Event.dispatch? key) past

/-- The event occurred while the job was the last one dispatched for its key. -/
def Happened (past : List Event) (job : Job) (event : Event) : Prop :=
  During (Event.dispatch? job.key) past job event

/-- Whether the snooze command of the job of a stage was accepted. -/
def Stage.accepted : Stage → Bool
  | answered _ accepted => accepted
  | publishing _ | attempting _ _ | delivered _ _ => true
  | settled _ ok => ok
  | _ => false

/-- Whether the status of the job of a stage was published. -/
def Stage.published : Stage → Bool
  | delivered _ ok | settled _ ok => ok
  | _ => false

/-- What the history holds for the job of a stage. -/
structure Stage.Chronicle (past : List Event) (key : Key) (stage : Stage) : Prop where
  last : ∀ job, stage.job? = some job → lastDispatched key past = some job
  accepted : ∀ job, stage.job? = some job → stage.accepted = true →
    Happened past job (.answered key job.status.wake true)
  published : ∀ job, stage.job? = some job → stage.published = true →
    Happened past job (.published key job.status true)

theorem lastDispatched_append (key : Key) (past out : List Event) :
    lastDispatched key (past ++ out) = (lastDispatched key out).or (lastDispatched key past) :=
  latest_append past out

namespace Stage

variable {past out : List Event} {key : Key} {stage next : Stage}

theorem Chronicle.idle : Stage.Chronicle past key .idle where
  last := by simp [job?]
  accepted := by simp [job?]
  published := by simp [job?]

/-- Events that dispatch nothing for the key. -/
theorem Chronicle.append (chronicle : stage.Chronicle past key)
    (quiet : lastDispatched key out = none) : stage.Chronicle (past ++ out) key where
  last := by
    intro job found
    rw [lastDispatched_append, quiet]
    exact chronicle.last job found
  accepted := fun job found passed => (chronicle.accepted job found passed).append out
  published := fun job found passed => (chronicle.published job found passed).append out

/-- A job that was just dispatched. -/
theorem Chronicle.queued {job : Job} (dispatched : lastDispatched key out = some job) :
    Stage.Chronicle (past ++ out) key (.queued job) where
  last := by
    rintro other ⟨⟩
    rw [lastDispatched_append, dispatched]
    rfl
  accepted := by simp [Stage.accepted]
  published := by simp [Stage.published]

/-- A job that travels dispatches none. -/
theorem Move.undispatched (move : Stage.Move key stage out next) (other : Key) :
    lastDispatched other out = none := by
  cases move <;> simp [lastDispatched, Event.dispatch?]

/-- A job that travels one stage. -/
theorem Chronicle.move (chronicle : stage.Chronicle past key)
    (owned : ∀ job, stage.job? = some job → job.key = key)
    (move : Stage.Move key stage out next) : next.Chronicle (past ++ out) key := by
  -- The event of a move happens to the job it moves.
  have now : ∀ job event, stage.job? = some job → Happened (past ++ [event]) job event := by
    intro job event found
    have current := chronicle.last job found
    rw [← owned job found] at current
    exact During.now current event
  have moved := chronicle.append (move.undispatched key)
  refine ⟨?_, ?_, ?_⟩
  · intro job found
    rw [move.job?] at found
    exact moved.last job found
  · intro job found passed
    rw [move.job?] at found
    cases move with
    | receive | reject => cases passed
    | answer =>
        cases passed
        cases found
        exact now _ _ rfl
    | advance | attempt | retry _ | deliver _ => exact moved.accepted job found rfl
  · intro job found passed
    rw [move.job?] at found
    cases move with
    | deliver _ =>
        cases passed
        cases found
        exact now _ _ rfl
    | receive | answer | reject | advance | attempt | retry _ => cases passed

end Stage

/-- The event a move reports when a publish succeeds. -/
theorem Stage.Move.delivers {key other : Key} {stage next : Stage} {out : List Event}
    {status : Status} (move : Stage.Move key stage out next)
    (member : .published other status true ∈ out) :
    other = key ∧ ∃ job number, stage = .attempting job number ∧ status = job.status ∧
      out = [.published key status true] ∧ next = .delivered job true := by
  cases move with
  | @deliver job number ok _ =>
      simp only [List.mem_singleton, Event.published.injEq] at member
      obtain ⟨rfl, rfl, rfl⟩ := member
      exact ⟨rfl, job, number, rfl, rfl, rfl, rfl⟩
  | receive | advance | reject | attempt => exact absurd member List.not_mem_nil
  | answer | retry _ => simp at member

/-- An event of a job on its way. -/
def Event.Traveling : Event → Prop
  | .answered _ _ _ | .published _ _ _ => True
  | _ => False

/-- A step with an event of a job on its way moves that job and does nothing else. -/
theorem Lanes.Step.travels {lanes next : Lanes} {out : List Event} {event : Event}
    (step : lanes.Step out next) (member : event ∈ out) (traveling : event.Traveling) :
    ∃ key reached, Stage.Move key (lanes.stage key) out reached ∧ next.desk = lanes.desk ∧
      next.stage = Function.update lanes.stage key reached := by
  have resolved : ∀ job answer, event ∉ lanes.desk.settleEvents job answer := by
    intro job answer inside
    unfold AlarmStateCoordinator.settleEvents AlarmStateCoordinator.resolve at inside
    split at inside
    · obtain rfl := List.mem_singleton.mp inside
      exact traveling
    · exact List.not_mem_nil inside
  have still : ∀ {before : List Event}, (∀ event ∈ before, event.Quiet lanes.desk) →
      event ∉ before := by
    intro before quiet inside
    have silent := quiet event inside
    cases event with
    | answered _ _ _ | published _ _ _ => exact silent
    | _ => exact traveling
  have recorded : ∀ key status confirmation,
      event ≠ lanes.desk.recordEvent key status confirmation := by
    rintro key status confirmation rfl
    cases confirmation <;> exact traveling
  cases step with
  | still quiet => exact absurd member (still quiet)
  | start _ quiet _ _ _ _ =>
      simp only [List.mem_append, still quiet, List.mem_cons, recorded, List.not_mem_nil, or_false,
        false_or] at member
      subst member
      exact traveling.elim
  | displace _ quiet _ _ _ =>
      simp [still quiet, recorded] at member
  | travel move desk stage => exact ⟨_, _, move, desk, stage⟩
  | report _ _ => exact absurd member List.not_mem_nil
  | commitLast _ _ _ _ =>
      simp only [List.mem_append, resolved, List.mem_singleton, false_or] at member
      subst member
      exact traveling.elim
  | commitNext _ _ _ _ _ _ | rollBack _ _ _ _ _ _ | redispatch _ _ _ _ _ _ =>
      simp only [List.mem_append, resolved, List.mem_cons, List.not_mem_nil, or_false,
        false_or] at member
      rcases member with rfl | rfl <;> exact traveling.elim

/-- A publish succeeds in no other step than the return of its attempt. -/
theorem Lanes.Step.delivers {lanes next : Lanes} {out : List Event} {key : Key}
    {status : Status} (step : lanes.Step out next) (member : .published key status true ∈ out) :
    ∃ job number, lanes.stage key = .attempting job number ∧ status = job.status ∧
      out = [.published key status true] ∧ next.desk = lanes.desk ∧
      next.stage = Function.update lanes.stage key (.delivered job true) := by
  obtain ⟨moved, reached, move, desk, stage⟩ := step.travels member trivial
  obtain ⟨rfl, job, number, attempting, same, single, rfl⟩ := move.delivers member
  exact ⟨job, number, attempting, same, single, desk, stage⟩

/-- The chronicle of every lane. -/
def Lanes.Chronicle (past : List Event) (lanes : Lanes) : Prop :=
  ∀ key, (lanes.stage key).Chronicle past key

/-- The events of a reconciliation before the dispatch dispatch nothing. -/
theorem lastDispatched_settle (key : Key) (desk : AlarmStateCoordinator) (job : Job)
    (answer : Except UpdateError Unit) (rest : List Event) :
    lastDispatched key (desk.settleEvents job answer ++ rest) = lastDispatched key rest := by
  have none : lastDispatched key (desk.settleEvents job answer) = none := by
    unfold AlarmStateCoordinator.settleEvents AlarmStateCoordinator.resolve
    split <;> simp [lastDispatched, Event.dispatch?]
  rw [lastDispatched_append, none, Option.or_none]

theorem lastDispatched_quiet {desk : AlarmStateCoordinator} {before : List Event}
    (quiet : ∀ event ∈ before, event.Quiet desk) (key : Key) (rest : List Event) :
    lastDispatched key (before ++ rest) = lastDispatched key rest := by
  have none : lastDispatched key before = none := by
    rw [lastDispatched, latest, List.filterMap_eq_nil_iff.mpr]
    · rfl
    · intro event member
      exact (quiet event member).eq_none (fun _ _ => rfl) (fun _ => rfl) (fun _ => rfl)
        fun _ _ => rfl
  rw [lastDispatched_append, none, Option.or_none]

/-- One lane changes, and nothing is dispatched for another key. -/
theorem Lanes.Chronicle.update {lanes next : Lanes} {past out : List Event} {key : Key}
    {reached : Stage} (chronicle : lanes.Chronicle past)
    (stage : next.stage = Function.update lanes.stage key reached)
    (here : reached.Chronicle (past ++ out) key)
    (others : ∀ other, other ≠ key → lastDispatched other out = none) :
    next.Chronicle (past ++ out) := by
  intro other
  rw [stage]
  rcases eq_or_ne other key with rfl | different
  · rw [Function.update_self]
    exact here
  · rw [Function.update_of_ne different]
    exact (chronicle other).append (others other different)

/-- One lane gets a new job. -/
theorem Lanes.Chronicle.dispatch {lanes next : Lanes} {past out : List Event} {job : Job}
    (chronicle : lanes.Chronicle past)
    (stage : next.stage = Function.update lanes.stage job.key (.queued job))
    (dispatched : ∀ key, lastDispatched key out = if job.key = key then some job else none) :
    next.Chronicle (past ++ out) := by
  apply chronicle.update stage
  · exact .queued (by rw [dispatched, if_pos rfl])
  · intro other different
    rw [dispatched, if_neg different.symm]

/-- A step of the lanes keeps the chronicle. -/
theorem Lanes.Step.chronicle {lanes next : Lanes} {past out : List Event}
    (step : lanes.Step out next) (chronicle : lanes.Chronicle past) :
    next.Chronicle (past ++ out) := by
  cases step with
  | still quiet =>
      intro key
      apply (chronicle key).append
      have none := lastDispatched_quiet quiet key []
      rwa [List.append_nil] at none
  | @start key status confirmation before job _ decides quiet idle opens desk stage =>
      obtain rfl := AlarmStateCoordinator.nextJob_key opens
      apply chronicle.dispatch stage
      intro other
      rw [lastDispatched_quiet quiet]
      cases confirmation <;>
        simp [lastDispatched, latest_cons, AlarmStateCoordinator.recordEvent, Event.dispatch?]
  | @displace key status confirmation before job _ decides quiet under desk stage =>
      intro other
      rw [stage]
      apply (chronicle other).append
      rw [lastDispatched_quiet quiet]
      cases confirmation <;>
        simp [lastDispatched, AlarmStateCoordinator.recordEvent, Event.dispatch?]
  | @travel key events reached _ move desk stage =>
      have owned : ∀ job, (lanes.stage key).job? = some job → job.key = key :=
        fun job found => lanes.owned found
      exact chronicle.update stage ((chronicle key).move owned move)
        fun other _ => move.undispatched other
  | report desk each =>
      intro key
      rw [List.append_nil]
      rcases each key with kept | ⟨job, ok, arrived, reached⟩
      · rw [kept]
        exact chronicle key
      · have delivered := chronicle key
        rw [arrived] at delivered
        rw [reached]
        exact ⟨delivered.last, fun job found _ => delivered.accepted job found rfl,
          delivered.published⟩
  | @commitLast job status _ arrived latest desk stage =>
      apply chronicle.update stage .idle
      intro other different
      rw [lastDispatched_settle]
      simp [lastDispatched, Event.dispatch?]
  | @commitNext job status id newJob _ arrived latest newer follows desk stage =>
      have same := AlarmStateCoordinator.nextJob_key follows
      rw [← same] at stage
      apply chronicle.dispatch stage
      intro other
      rw [lastDispatched_settle]
      simp [lastDispatched, latest_cons, Event.dispatch?]
  | @rollBack job status newJob _ arrived latest user follows desk stage =>
      have same := AlarmStateCoordinator.nextJob_key follows
      rw [← same] at stage
      apply chronicle.dispatch stage
      intro other
      rw [lastDispatched_settle]
      simp [lastDispatched, latest_cons, Event.dispatch?]
  | @redispatch job status id newJob _ arrived latest keeps follows desk stage =>
      have same := AlarmStateCoordinator.nextJob_key follows
      rw [← same] at stage
      apply chronicle.dispatch stage
      intro other
      rw [lastDispatched_settle]
      simp [lastDispatched, latest_cons, Event.dispatch?]

end AcornAlarms
