import AcornAlarms.Lanes.Ledger

/-!
# What was published and what was confirmed

For every key the successful publishes, oldest first, against the statuses a
reconciliation wrote to the confirmed state. The two differ by the status of a job
that was published and is not yet reconciled.
-/

namespace AcornAlarms

open Library

variable [Platform]

/-- The status of a key an event reports as published. -/
def Event.delivery? (key : Key) : Event → Option Status
  | .published other status true => if other = key then some status else none
  | _ => none

/-- The status of a key an event reports as written to the confirmed state. -/
def Event.write? (key : Key) : Event → Option Status
  | .committed job => if job.key = key then some job.status else none
  | _ => none

/-- The statuses of a key that were published, oldest first. -/
def deliveredOf (key : Key) (past : List Event) : List Status :=
  past.filterMap (Event.delivery? key)

/-- The statuses of a key that were written to the confirmed state, oldest first. -/
def writtenOf (key : Key) (past : List Event) : List Status := past.filterMap (Event.write? key)

/-- The published status a stage has yet to bring to the coordinator. -/
def Stage.unwritten : Stage → List Status
  | delivered job true | settled job true => [job.status]
  | _ => []

/-- A job under way has at most its own status to write. -/
theorem Stage.unwritten_cases {stage : Stage} {job : Job} (under : stage.job? = some job) :
    stage.unwritten = [] ∨ stage.unwritten = [job.status] := by
  unfold Stage.unwritten
  split
  · obtain rfl := Option.some.inj under
    exact .inr rfl
  · obtain rfl := Option.some.inj under
    exact .inr rfl
  · exact .inl rfl

section

variable (key : Key) (past out : List Event)

@[simp] theorem deliveredOf_nil : deliveredOf key [] = [] := rfl

@[simp] theorem writtenOf_nil : writtenOf key [] = [] := rfl

@[simp] theorem deliveredOf_append :
    deliveredOf key (past ++ out) = deliveredOf key past ++ deliveredOf key out :=
  List.filterMap_append

@[simp] theorem writtenOf_append :
    writtenOf key (past ++ out) = writtenOf key past ++ writtenOf key out :=
  List.filterMap_append

theorem deliveredOf_cons (event : Event) :
    deliveredOf key (event :: past) = (event.delivery? key).toList ++ deliveredOf key past := by
  cases picked : event.delivery? key <;> simp [deliveredOf, picked]

theorem writtenOf_cons (event : Event) :
    writtenOf key (event :: past) = (event.write? key).toList ++ writtenOf key past := by
  cases picked : event.write? key <;> simp [writtenOf, picked]

end

/-- Quiet events publish nothing and write nothing. -/
theorem quiet_unpublished {desk : AlarmStateCoordinator} {before : List Event}
    (quiet : ∀ event ∈ before, event.Quiet desk) (key : Key) :
    deliveredOf key before = [] ∧ writtenOf key before = [] := by
  constructor
  · apply List.filterMap_eq_nil_iff.mpr
    intro event member
    exact (quiet event member).eq_none (fun _ _ => rfl) (fun _ => rfl) (fun _ => rfl)
      fun _ _ => rfl
  · apply List.filterMap_eq_nil_iff.mpr
    intro event member
    exact (quiet event member).eq_none (fun _ _ => rfl) (fun _ => rfl) (fun _ => rfl)
      fun _ _ => rfl

/-- An answered confirmation publishes nothing and writes nothing. -/
theorem settle_unpublished (desk : AlarmStateCoordinator) (job : Job)
    (answer : Except UpdateError Unit) (key : Key) :
    deliveredOf key (desk.settleEvents job answer) = [] ∧
      writtenOf key (desk.settleEvents job answer) = [] := by
  unfold AlarmStateCoordinator.settleEvents AlarmStateCoordinator.resolve
  split <;> simp [deliveredOf, writtenOf, Event.delivery?, Event.write?]

/-- A step publishes for a key what its lane carries away, and writes what the lane
brings. -/
structure Balances (lanes next : Lanes) (out : List Event) (key : Key) : Prop where
  log : (lanes.stage key).unwritten ++ deliveredOf key out =
    writtenOf key out ++ (next.stage key).unwritten
  store : (next.desk.confirmedState.get? key).map Prod.fst =
    (writtenOf key out).getLast?.or ((lanes.desk.confirmedState.get? key).map Prod.fst)

namespace Balances

variable {lanes next : Lanes} {out : List Event} {key : Key}

/-- Nothing about the key happens. -/
theorem still (unpublished : deliveredOf key out = [] ∧ writtenOf key out = [])
    (stage : (next.stage key).unwritten = (lanes.stage key).unwritten)
    (desk : next.desk.confirmedState.get? key = lanes.desk.confirmedState.get? key) :
    Balances lanes next out key where
  log := by rw [unpublished.1, unpublished.2, stage, List.append_nil, List.nil_append]
  store := by
    rw [unpublished.2, desk]
    rfl

end Balances

namespace Stage

variable {stage next : Stage} {out : List Event} {key : Key}

/-- A job that travels publishes what it then carries, for its own key. -/
theorem Move.log (move : Stage.Move key stage out next) :
    stage.unwritten ++ deliveredOf key out = next.unwritten := by
  cases move with
  | receive | advance | reject | attempt => rfl
  | answer | retry _ => simp [deliveredOf, Event.delivery?, unwritten]
  | @deliver job number ok _ => cases ok <;> simp [deliveredOf, Event.delivery?, unwritten]

/-- A job that travels publishes for no other key. -/
theorem Move.log_others (move : Stage.Move key stage out next) {other : Key}
    (different : other ≠ key) : deliveredOf other out = [] := by
  cases move with
  | receive | advance | reject | attempt => rfl
  | answer | retry _ => simp [deliveredOf, Event.delivery?]
  | @deliver job number ok _ =>
      cases ok <;> simp [deliveredOf, Event.delivery?, different.symm]

/-- A job that travels writes nothing. -/
theorem Move.unwritten (move : Stage.Move key stage out next) (other : Key) :
    writtenOf other out = [] := by
  cases move <;> simp [writtenOf, Event.write?]

end Stage

namespace Lanes

variable {lanes next : Lanes} {out : List Event}

/-- The events of a recorded status publish nothing and write nothing. -/
theorem record_unpublished {before : List Event} (quiet : ∀ event ∈ before, event.Quiet lanes.desk)
    (key : Key) (status : Status) (confirmation : Option Confirmation) (jobs : List Job)
    (other : Key) :
    deliveredOf other (before ++ lanes.desk.recordEvent key status confirmation ::
        jobs.map .dispatched) = [] ∧
      writtenOf other (before ++ lanes.desk.recordEvent key status confirmation ::
        jobs.map .dispatched) = [] := by
  obtain ⟨delivered, written⟩ := quiet_unpublished quiet other
  have dispatched : deliveredOf other (jobs.map .dispatched) = [] ∧
      writtenOf other (jobs.map .dispatched) = [] := by
    simp [deliveredOf, writtenOf, Event.delivery?, Event.write?, Function.comp_def]
  cases confirmation <;>
    simp [deliveredOf_cons, writtenOf_cons, delivered, written, dispatched,
      AlarmStateCoordinator.recordEvent, Event.delivery?, Event.write?]

/-- The events of a failed job publish nothing and write nothing. -/
theorem failure_unpublished (desk : AlarmStateCoordinator) (job newJob : Job) (other : Key) :
    deliveredOf other (desk.settleEvents job (.error (.internal job.key)) ++
        [.failed job, .dispatched newJob]) = [] ∧
      writtenOf other (desk.settleEvents job (.error (.internal job.key)) ++
        [.failed job, .dispatched newJob]) = [] := by
  have settled := settle_unpublished desk job (.error (.internal job.key)) other
  simp [deliveredOf_cons, writtenOf_cons, settled, Event.delivery?, Event.write?]

/-- One lane changes, and nothing is published or written for another key. -/
theorem balances_update {key : Key} {reached : Stage}
    (stage : next.stage = Function.update lanes.stage key reached)
    (here : Balances lanes next out key)
    (others : ∀ other, other ≠ key →
      (deliveredOf other out = [] ∧ writtenOf other out = []) ∧
        next.desk.confirmedState.get? other = lanes.desk.confirmedState.get? other)
    (other : Key) : Balances lanes next out other := by
  by_cases same : other = key
  · rw [same]
    exact here
  · obtain ⟨unpublished, desk⟩ := others other same
    exact .still unpublished (by rw [stage, Function.update_of_ne same]) desk

/-- The events of a committed job publish nothing and write its status. -/
theorem commit_written (desk : AlarmStateCoordinator) (job : Job) (jobs : List Job) (other : Key) :
    deliveredOf other (desk.settleEvents job (.ok ()) ++
        (jobs.map .dispatched ++ [.committed job])) = [] ∧
      writtenOf other (desk.settleEvents job (.ok ()) ++
        (jobs.map .dispatched ++ [.committed job])) =
          if job.key = other then [job.status] else [] := by
  have settled := settle_unpublished desk job (.ok ()) other
  have dispatched : deliveredOf other (jobs.map .dispatched) = [] ∧
      writtenOf other (jobs.map .dispatched) = [] := by
    simp [deliveredOf, writtenOf, Event.delivery?, Event.write?, Function.comp_def]
  by_cases same : job.key = other <;>
    simp [deliveredOf_cons, writtenOf_cons, settled, dispatched, Event.delivery?, Event.write?, same]

/-- A committed job is written under its key. -/
theorem balances_commit {job : Job} {reached : Stage} (jobs : List Job)
    (arrived : lanes.stage job.key = .settled job true)
    (stage : next.stage = Function.update lanes.stage job.key reached)
    (empty : reached.unwritten = [])
    (confirmed : next.desk.confirmedState =
      lanes.desk.confirmedState.insert job.key (job.status, job.id))
    (reports : out = lanes.desk.settleEvents job (.ok ()) ++
      (jobs.map .dispatched ++ [.committed job]))
    (other : Key) : Balances lanes next out other := by
  have events := commit_written lanes.desk job jobs
  rw [← reports] at events
  have delivered : ∀ other, deliveredOf other out = [] := fun other => (events other).1
  have written : ∀ other, writtenOf other out =
      if job.key = other then [job.status] else [] := fun other => (events other).2
  refine balances_update stage ⟨?_, ?_⟩ ?_ other
  · rw [arrived, delivered, written, if_pos rfl, stage, Function.update_self, empty]
    rfl
  · rw [confirmed, written, if_pos rfl, FiniteMap.get?_insert_self]
    rfl
  · intro other different
    refine ⟨⟨delivered other, by rw [written, if_neg different.symm]⟩, ?_⟩
    rw [confirmed, FiniteMap.get?_insert_of_ne _ _ different]

/-- A failed job writes nothing. -/
theorem balances_failure {job newJob : Job}
    (arrived : lanes.stage job.key = .settled job false)
    (stage : next.stage = Function.update lanes.stage job.key (.queued newJob))
    (confirmed : next.desk.confirmedState = lanes.desk.confirmedState)
    (reports : out = lanes.desk.settleEvents job (.error (.internal job.key)) ++
      [.failed job, .dispatched newJob])
    (other : Key) : Balances lanes next out other := by
  have unpublished := fun other => failure_unpublished lanes.desk job newJob other
  rw [← reports] at unpublished
  apply balances_update stage
  · exact .still (unpublished _) (by rw [stage, arrived, Function.update_self]; rfl)
      (by rw [confirmed])
  · intro other _
    exact ⟨unpublished other, by rw [confirmed]⟩

/-- What a step publishes and what it writes balance, for every key. -/
theorem Step.balances (step : lanes.Step out next) (key : Key) : Balances lanes next out key := by
  cases step with
  | still quiet => exact .still (quiet_unpublished quiet key) rfl rfl
  | @start started status confirmation before job _ decides quiet idle opens desk stage =>
      have unpublished := record_unpublished quiet started status confirmation [job]
      apply balances_update stage
      · apply Balances.still (unpublished started)
        · rw [stage, idle, Function.update_self]
          rfl
        · rw [desk, AlarmStateCoordinator.record_confirmedState]
      · intro other _
        exact ⟨unpublished other, by rw [desk, AlarmStateCoordinator.record_confirmedState]⟩
  | @displace recorded status confirmation before _ _ decides quiet under desk stage =>
      apply Balances.still (record_unpublished quiet recorded status confirmation [] key)
      · rw [stage]
      · rw [desk, AlarmStateCoordinator.record_confirmedState]
  | @travel moved events reached _ move desk stage =>
      apply balances_update stage
      · refine ⟨?_, ?_⟩
        · rw [move.log, move.unwritten, stage, Function.update_self, List.nil_append]
        · rw [desk, move.unwritten]
          rfl
      · intro other different
        exact ⟨⟨move.log_others different, move.unwritten other⟩, by rw [desk]⟩
  | report desk each =>
      apply Balances.still ⟨rfl, rfl⟩
      · rcases each key with kept | ⟨job, ok, arrived, reached⟩
        · rw [kept]
        · rw [arrived, reached]
          cases ok <;> rfl
      · rw [desk]
  | commitLast arrived latest desk stage =>
      exact balances_commit [] arrived stage rfl (by rw [desk]; simp) rfl key
  | @commitNext job _ _ newJob _ arrived latest newer follows desk stage =>
      exact balances_commit [newJob] arrived stage rfl (by rw [desk]; simp) rfl key
  | rollBack arrived latest user follows desk stage =>
      exact balances_failure arrived stage (by rw [desk]; simp) rfl key
  | redispatch arrived latest keeps follows desk stage =>
      exact balances_failure arrived stage (by rw [desk]; simp) rfl key

/-- The balance of a longer history. -/
theorem Step.balanced {key : Key} {past : List Event} (step : lanes.Step out next)
    (carried : List Status)
    (balanced : carried ++ deliveredOf key past =
      writtenOf key past ++ (lanes.stage key).unwritten) :
    carried ++ deliveredOf key (past ++ out) =
      writtenOf key (past ++ out) ++ (next.stage key).unwritten :=
  calc carried ++ deliveredOf key (past ++ out)
      = writtenOf key past ++ ((lanes.stage key).unwritten ++ deliveredOf key out) := by
        rw [deliveredOf_append, ← List.append_assoc, balanced, List.append_assoc]
    _ = writtenOf key (past ++ out) ++ (next.stage key).unwritten := by
        rw [(step.balances key).log, writtenOf_append, List.append_assoc]

end Lanes

/-- The status of a key a rollback can know of: the last one published, else the hydrated
one, else the default one. -/
def lastPublished (hydratedStatuses : FiniteMap Key Status) (past : List Event) (key : Key) :
    Status :=
  ((deliveredOf key past).getLast?.or (hydratedStatuses.get? key)).getD (buildDefaultStatus key)

/-- The history and the lanes agree on what was published and what is confirmed. -/
structure Journal (hydratedStatuses : FiniteMap Key Status) (past : List Event) (lanes : Lanes) :
    Prop where
  log : ∀ key, deliveredOf key past = writtenOf key past ++ (lanes.stage key).unwritten
  store : ∀ key, (lanes.desk.confirmedState.get? key).map Prod.fst =
    (writtenOf key past).getLast?.or (hydratedStatuses.get? key)

namespace Journal

variable {hydratedStatuses : FiniteMap Key Status} {past out : List Event} {lanes next : Lanes}

theorem start (hydratedStatuses : FiniteMap Key Status) :
    Journal hydratedStatuses [] (.start hydratedStatuses) where
  log := fun _ => rfl
  store := by
    intro key
    simp [Lanes.start, AlarmStateCoordinator.new, Function.comp_def]

theorem step (journal : Journal hydratedStatuses past lanes) (step : lanes.Step out next) :
    Journal hydratedStatuses (past ++ out) next where
  log := fun key => step.balanced [] (journal.log key)
  store := by
    intro key
    rw [(step.balances key).store, journal.store, writtenOf_append, List.getLast?_append,
      Option.or_assoc]

/-- What is confirmed was hydrated or published. -/
theorem confirmed (journal : Journal hydratedStatuses past lanes) {key : Key} {status : Status}
    (found : (lanes.desk.confirmedState.get? key).map Prod.fst = some status) :
    hydratedStatuses.get? key = some status ∨ status ∈ deliveredOf key past := by
  rw [journal.store] at found
  cases last : (writtenOf key past).getLast? with
  | none =>
      rw [last] at found
      exact .inl found
  | some written =>
      rw [last] at found
      obtain rfl := Option.some.inj found
      rw [journal.log]
      exact .inr (List.mem_append_left _ (List.mem_of_getLast? last))

/-- With nothing left to write, the confirmed status of a key is the last one published. -/
theorem last (journal : Journal hydratedStatuses past lanes) {key : Key}
    (written : (lanes.stage key).unwritten = []) :
    (lanes.desk.confirmedState.get? key).map Prod.fst =
      (deliveredOf key past).getLast?.or (hydratedStatuses.get? key) := by
  rw [journal.store, journal.log, written, List.append_nil]

/-- With nothing left to write, a rollback restores the last published status. -/
theorem restores (journal : Journal hydratedStatuses past lanes) {key : Key}
    (written : (lanes.stage key).unwritten = []) :
    (lanes.desk.confirmedOrDefault key).1 = lastPublished hydratedStatuses past key := by
  rw [lastPublished, ← journal.last written, AlarmStateCoordinator.confirmedOrDefault]
  cases lanes.desk.confirmedState.get? key <;> rfl

end Journal

end AcornAlarms
