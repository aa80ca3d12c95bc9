import AcornAlarms.Lanes.Arrivals
import AcornAlarms.Lanes.Timers
import AcornAlarms.Library.Tally

/-!
# The load of a pipeline

Every message between two tasks is about the one job of a key with speculative state,
or it is the notice of a timer that elapsed. The load counts these keys and notices, so
it bounds what the two channels between a pair of tasks hold together. Only an update
of an idle key and an elapsing timer raise it.
-/

namespace AcornAlarms

open Library

variable [Platform]

/-- The key a snooze outcome answers a command of. -/
def SnoozeOutcome.answered? : SnoozeOutcome → Option Key
  | .accepted key | .invalidWake key => some key
  | .expired _ => none

/-- The key a snooze outcome reports an elapsed timer of. -/
def SnoozeOutcome.elapsed? : SnoozeOutcome → Option Key
  | .expired key => some key
  | _ => none

/-- The key a job outcome settles a job of. -/
def JobOutcome.settled? : JobOutcome → Option Key
  | .committed job | .failed job => some job.key
  | .wake _ => none

/-- The key a job outcome wakes. -/
def JobOutcome.woken? : JobOutcome → Option Key
  | .wake key => some key
  | _ => none

/-- An update opens the lane of an idle key. -/
def AlarmStateCoordinator.opens (self : AlarmStateCoordinator) : Arrival → Bool
  | .update status =>
      !self.speculativeState.contains (Key.from status) &&
        shouldPublish (self.getLatestStatus (Key.from status)) status
  | .request key action _ _ _ =>
      !self.speculativeState.contains key &&
        userActionAllowed
          (((self.getLatestStatus key).map fun status => status.state.value).getD .unknown)
          ((self.getLatestStatus key).bind fun status => status.wake) action
  | .outcome _ _ => false

namespace Pipeline

variable (self : Pipeline) (key : Key)

/-- The keys of the elapsed timers whose notices are on their way to the coordinator. -/
def notices : List Key :=
  self.snoozeOutcomes.filterMap SnoozeOutcome.elapsed? ++
    self.jobOutcomes.filterMap JobOutcome.woken?

/-- The keys with speculative state and the notices of elapsed timers. -/
def load : Nat := self.coordinator.speculativeState.keys.length + self.notices.length

/-- Whether a turn may raise the load: an input opens a lane or a timer elapses. -/
def raises : Action → Bool
  | .input message now => (self.arrival (.input message now)).any self.coordinator.opens
  | .expiry _ _ => true
  | _ => false

theorem count_notices : self.notices.count key = self.wakesOf key := by
  have elapsed : ∀ outcomes : List SnoozeOutcome,
      (outcomes.filterMap SnoozeOutcome.elapsed?).count key = outcomes.count (.expired key) := by
    intro outcomes
    induction outcomes with
    | nil => rfl
    | cons outcome rest ih =>
        cases outcome <;> simp [List.filterMap_cons, SnoozeOutcome.elapsed?, List.count_cons, ih]
  have woken : ∀ outcomes : List JobOutcome,
      (outcomes.filterMap JobOutcome.woken?).count key = outcomes.count (.wake key) := by
    intro outcomes
    induction outcomes with
    | nil => rfl
    | cons outcome rest ih =>
        cases outcome <;> simp [List.filterMap_cons, JobOutcome.woken?, List.count_cons, ih]
  rw [notices, wakesOf, List.count_append, elapsed, woken]

theorem count_jobs : (self.jobs.map Job.key).count key = (self.jobsOf key).length := by
  rw [jobsOf, ← List.countP_eq_length_filter, List.count, List.countP_map]
  exact List.countP_congr fun job _ => by simp

theorem count_commands :
    (self.snoozeInputs.map SnoozeInput.key).count key = (self.commandsOf key).length := by
  rw [commandsOf, ← List.countP_eq_length_filter, List.count, List.countP_map]
  exact List.countP_congr fun input _ => by simp

theorem count_requests :
    (self.publishes.map fun request => request.detailsRef.key).count key =
      (self.requestsOf key).length := by
  rw [requestsOf, ← List.countP_eq_length_filter, List.count, List.countP_map]
  exact List.countP_congr fun request _ => by simp

theorem count_results :
    (self.results.map SymmetricalResult.intoInner).count key = (self.resultsOf key).length := by
  rw [resultsOf]
  induction self.results with
  | nil => rfl
  | cons result rest ih =>
      by_cases same : result.intoInner = key <;> simp [resultFor, same, ih]

theorem count_replies :
    (self.snoozeOutcomes.filterMap SnoozeOutcome.answered?).count key =
      (self.repliesOf key).length := by
  rw [repliesOf]
  induction self.snoozeOutcomes with
  | nil => rfl
  | cons outcome rest ih =>
      cases outcome <;>
        simp [List.filterMap_cons, SnoozeOutcome.answered?, replyFor, List.count_cons, ih] <;>
        split <;> simp

theorem count_outcomes :
    (self.jobOutcomes.filterMap JobOutcome.settled?).count key =
      (self.outcomesOf key).length := by
  rw [outcomesOf]
  induction self.jobOutcomes with
  | nil => rfl
  | cons outcome rest ih =>
      cases outcome <;>
        simp [List.filterMap_cons, JobOutcome.settled?, outcomeFor, List.count_cons, ih] <;>
        split <;> simp

end Pipeline

namespace Refines

variable {pipeline : Pipeline} {lanes : Lanes}

/-- Messages that are each about the job under way for another key are no more than the keys
with speculative state. -/
theorem carried (refines : Refines pipeline lanes) {named : List Key}
    (once : ∀ key, named.count key ≤ (lanes.stage key).job?.toList.length) :
    named.length ≤ pipeline.coordinator.speculativeState.keys.length := by
  apply FiniteMap.length_le_keys
  intro key
  have bound := once key
  have busy := lanes.busy key
  rw [FiniteMap.contains, refines.desk, busy]
  cases under : (lanes.stage key).job? <;> simpa [under] using bound

/-- What the job queue and the job-outcome queue hold together. -/
theorem jobs_le (refines : Refines pipeline lanes) :
    pipeline.jobs.length + pipeline.jobOutcomes.length ≤ pipeline.load := by
  have jobs : (pipeline.jobs.map Job.key ++
      pipeline.jobOutcomes.filterMap JobOutcome.settled?).length ≤
      pipeline.coordinator.speculativeState.keys.length := by
    apply refines.carried
    intro key
    rw [List.count_append, pipeline.count_jobs, pipeline.count_outcomes,
      (refines.occupies key).jobs, (refines.occupies key).outcomes]
    cases lanes.stage key <;> simp [Stage.jobs, Stage.outcomes, Stage.job?]
  have split : ∀ outcomes : List JobOutcome, outcomes.length =
      (outcomes.filterMap JobOutcome.settled?).length +
        (outcomes.filterMap JobOutcome.woken?).length := by
    intro outcomes
    induction outcomes with
    | nil => rfl
    | cons outcome rest ih =>
        cases outcome <;>
          simp [List.filterMap_cons, JobOutcome.settled?, JobOutcome.woken?, ih] <;> omega
  rw [List.length_append, List.length_map] at jobs
  rw [Pipeline.load, Pipeline.notices, List.length_append, split pipeline.jobOutcomes]
  omega

/-- What the snooze queue and the snooze-outcome queue hold together. -/
theorem snoozes_le (refines : Refines pipeline lanes) :
    pipeline.snoozeInputs.length + pipeline.snoozeOutcomes.length ≤ pipeline.load := by
  have commands : (pipeline.snoozeInputs.map SnoozeInput.key ++
      pipeline.snoozeOutcomes.filterMap SnoozeOutcome.answered?).length ≤
      pipeline.coordinator.speculativeState.keys.length := by
    apply refines.carried
    intro key
    rw [List.count_append, pipeline.count_commands, pipeline.count_replies,
      (refines.occupies key).commands, (refines.occupies key).replies]
    cases lanes.stage key <;> simp [Stage.commands, Stage.replies, Stage.job?]
  have split : ∀ outcomes : List SnoozeOutcome, outcomes.length =
      (outcomes.filterMap SnoozeOutcome.answered?).length +
        (outcomes.filterMap SnoozeOutcome.elapsed?).length := by
    intro outcomes
    induction outcomes with
    | nil => rfl
    | cons outcome rest ih =>
        cases outcome <;>
          simp [List.filterMap_cons, SnoozeOutcome.answered?, SnoozeOutcome.elapsed?, ih] <;> omega
  rw [List.length_append, List.length_map] at commands
  rw [Pipeline.load, Pipeline.notices, List.length_append, split pipeline.snoozeOutcomes]
  omega

end Refines

/-- Every message on the publish-outcome queue has a result. -/
def Pipeline.Reported (self : Pipeline) : Prop :=
  ∀ outcome ∈ self.publishOutcomes, outcome.results ≠ []

/-- What the publish queue and the publish-outcome queue hold together. -/
theorem Refines.publishes_le {pipeline : Pipeline} {lanes : Lanes}
    (refines : Refines pipeline lanes) (reported : pipeline.Reported) :
    pipeline.publishes.length + pipeline.publishOutcomes.length ≤ pipeline.load := by
  have requests : ((pipeline.publishes.map fun request => request.detailsRef.key) ++
      pipeline.results.map SymmetricalResult.intoInner).length ≤
      pipeline.coordinator.speculativeState.keys.length := by
    apply refines.carried
    intro key
    rw [List.count_append, pipeline.count_requests, pipeline.count_results,
      (refines.occupies key).requests, (refines.occupies key).results]
    cases lanes.stage key <;> simp [Stage.requests, Stage.results, Stage.job?]
  have filled : ∀ outcomes : List PublishOutcome, (∀ outcome ∈ outcomes, outcome.results ≠ []) →
      outcomes.length ≤ (outcomes.flatMap PublishOutcome.results).length := by
    intro outcomes nonempty
    induction outcomes with
    | nil => exact Nat.le_refl _
    | cons outcome rest ih =>
        have first := List.length_pos_of_ne_nil (nonempty outcome List.mem_cons_self)
        have later := ih fun other member => nonempty other (List.mem_cons_of_mem _ member)
        rw [List.flatMap_cons, List.length_append, List.length_cons]
        omega
  have returned := filled pipeline.publishOutcomes reported
  simp only [Pipeline.results, List.length_append, List.length_map] at requests
  rw [Pipeline.load]
  omega

namespace Timed

variable {past out : List Event} {pipeline next : Pipeline}

/-- The timers that elapsed are those whose wake-up was handled and those with a notice on its
way. -/
theorem elapsed (timed : Timed past pipeline) (key : Key) :
    past.count (.expired key) = past.count (.woke key) + pipeline.notices.count key := by
  rw [pipeline.count_notices, ← wakesHandled, ← timed.transit key, expiredTimers, length_statesAt]
  exact List.countP_congr fun event _ => by simp

/-- A turn adds the notices it sends and drops those it handles. -/
theorem notices (timed : Timed past pipeline) (after : Timed (past ++ out) next) (key : Key) :
    next.notices.count key + out.count (.woke key) =
      pipeline.notices.count key + out.count (.expired key) := by
  have before := timed.elapsed key
  have later := after.elapsed key
  rw [List.count_append, List.count_append] at later
  omega

end Timed

/-- Only a timer that elapses is reported as elapsed. -/
theorem Timing.elapsing {pipeline : Pipeline} {action : Action} {out : List Event}
    (timing : Timing pipeline action out) :
    ∃ keys : List Key, (∀ key, out.count (.expired key) ≤ keys.count key) ∧
      (keys = [] ∨ ∃ clock slot key, action = .expiry clock slot ∧ keys = [key]) := by
  have none : ∀ {events : List Event}, (∀ event ∈ events, event.Untimed) →
      ∀ key, events.count (.expired key) = 0 :=
    fun quiet key => List.count_eq_zero.mpr fun member => quiet _ member
  cases timing with
  | untimed quiet => exact ⟨[], fun key => Nat.le_of_eq (none quiet key), .inl rfl⟩
  | answered _ _ single =>
      subst single
      exact ⟨[], by simp, .inl rfl⟩
  | @expired clock slot key taken _ single =>
      subst single
      exact ⟨[key], fun other => by simp [List.count_singleton], .inr ⟨clock, slot, key, taken, rfl⟩⟩
  | woke _ _ first quiet =>
      subst first
      exact ⟨[], fun key => by simp [none quiet key], .inl rfl⟩

namespace AlarmStateCoordinator

variable (self : AlarmStateCoordinator)

/-- Only an update that opens its lane adds a key to the speculative state. -/
theorem receive_busy {underway : Option Job} {arrival : Arrival}
    (owned : ∀ job, underway = some job → (self.speculativeState.get? job.key).isSome) {key : Key}
    (present : ((self.receive underway arrival).coordinator.speculativeState.get? key).isSome) :
    (key = arrival.key ∧ self.opens arrival = true) ∨ (self.speculativeState.get? key).isSome := by
  have inserted : ∀ {other : Key} {entry : Status × Nat},
      ((self.speculativeState.insert other entry).get? key).isSome →
      (key = other ∧ self.speculativeState.contains other = false) ∨
        (self.speculativeState.get? key).isSome := by
    intro other entry found
    rw [FiniteMap.get?_insert] at found
    split at found
    · next same =>
        subst same
        cases busy : self.speculativeState.contains key with
        | true => exact .inr busy
        | false => exact .inl ⟨rfl, rfl⟩
    · exact .inr found
  cases arrival with
  | update status =>
      simp only [receive, handleAutomatedUpdate_eq] at present
      split at present
      · next accepted =>
          refine (inserted present).imp_left fun fresh => ⟨fresh.1, ?_⟩
          simp [opens, fresh.2, accepted]
      · exact .inr present
  | request other action user confirmation now =>
      simp only [receive, handleUserUpdate_eq] at present
      split at present
      · next allowed =>
          refine (inserted present).imp_left fun fresh => ⟨fresh.1, ?_⟩
          simp [opens, fresh.2, allowed]
      · exact .inr present
  | outcome other committed =>
      refine .inr ?_
      cases underway with
      | none => exact present
      | some job =>
          have busy := owned job rfl
          obtain ⟨⟨status, id⟩, found⟩ := Option.isSome_iff_exists.mp busy
          cases committed with
          | true =>
              by_cases latest : id = job.id
              · subst latest
                simp only [receive, Job.outcome, reconcileJobOutcome,
                  self.reconcileSuccess_last job found, confirm_speculativeState,
                  clear_speculativeState, settle_speculativeState, FiniteMap.get?_erase] at present
                split at present
                · cases present
                · exact present
              · simpa only [receive, Job.outcome, reconcileJobOutcome,
                  self.reconcileSuccess_next job found latest, confirm_speculativeState,
                  settle_speculativeState] using present
          | false =>
              simp only [receive, Job.outcome, reconcileJobOutcome,
                self.reconcileFailure_eq job found] at present
              split at present
              · rw [converge_speculativeState, settle_speculativeState, FiniteMap.get?_insert]
                  at present
                split at present
                · next same => rwa [same]
                · exact present
              · rwa [settle_speculativeState] at present

end AlarmStateCoordinator

namespace Refines

variable {past out : List Event} {pipeline next : Pipeline} {lanes : Lanes} {action : Action}

/-- A turn opens a lane only for an update that does. -/
theorem keys_le (refines : Refines pipeline lanes)
    (fires : pipeline.step action = some (next, out)) :
    next.coordinator.speculativeState.keys.length ≤
      pipeline.coordinator.speculativeState.keys.length +
        if (pipeline.arrival action).any pipeline.coordinator.opens then 1 else 0 := by
  cases taken : pipeline.arrival action with
  | none =>
      rw [(turn_none fires taken).1]
      exact Nat.le_add_right _ _
  | some arrival =>
      obtain ⟨_, coordinator, _⟩ := refines.turn_some fires taken
      have owned : ∀ job, lanes.underway arrival.key = some job →
          (lanes.desk.speculativeState.get? job.key).isSome := by
        intro job under
        rw [lanes.busy, lanes.owned under]
        exact Option.isSome_iff_exists.mpr ⟨job, under⟩
      rw [coordinator, refines.desk, Option.any_some, Nat.add_comm]
      cases opens : lanes.desk.opens arrival with
      | true =>
          refine FiniteMap.length_keys_le [arrival.key] fun key present => ?_
          refine (lanes.desk.receive_busy owned present).imp_left fun ⟨same, _⟩ => ?_
          exact List.mem_singleton.mpr same
      | false =>
          refine FiniteMap.length_keys_le [] fun key present => .inr ?_
          refine (lanes.desk.receive_busy owned present).resolve_left fun ⟨_, lane⟩ => ?_
          rw [opens] at lane
          cases lane

/-- A turn raises the load by at most one, and only an update that opens a lane or an elapsing
timer raises it. -/
theorem load_step (refines : Refines pipeline lanes) (timed : Timed past pipeline)
    (fires : pipeline.step action = some (next, out)) :
    next.load ≤ pipeline.load + if pipeline.raises action then 1 else 0 := by
  have after := timed.step refines fires
  have keys := refines.keys_le fires
  obtain ⟨elapsing, counted, elapses⟩ := (refines.timing fires).elapsing
  have notices : next.notices.length ≤ (elapsing ++ pipeline.notices).length := by
    apply length_le_of_count
    intro key
    have balance := timed.notices after key
    have few := counted key
    rw [List.count_append]
    omega
  rw [List.length_append] at notices
  unfold Pipeline.load
  rcases elapses with rfl | ⟨clock, slot, key, rfl, rfl⟩
  · cases action with
    | jobOutcome now =>
        cases queue : pipeline.jobOutcomes with
        | nil => simp [Pipeline.step, Pipeline.handle, queue] at fires
        | cons outcome rest =>
            cases outcome with
            | wake key =>
                -- The notice the coordinator takes makes room for the lane it may open.
                obtain ⟨later, rfl, _⟩ := refines.wakes_first queue fires
                have fewer : (key :: next.notices).length ≤ pipeline.notices.length := by
                  apply length_le_of_count
                  intro other
                  have balance := timed.notices after other
                  have few := counted other
                  rw [List.count_nil] at few
                  by_cases same : key = other
                  · subst same
                    simp only [List.count_cons_self] at balance ⊢
                    omega
                  · rw [List.count_cons_of_ne same]
                    omega
                rw [List.length_cons] at fewer
                split at keys <;> omega
            | committed job | failed job =>
                simp only [Pipeline.arrival, queue, Option.any_some, AlarmStateCoordinator.opens]
                  at keys
                simpa [Pipeline.raises] using Nat.add_le_add keys notices
    | input message now =>
        simp only [Pipeline.raises]
        split at keys <;> simp_all <;> omega
    | _ =>
        simp [Pipeline.arrival, Pipeline.raises] at keys notices ⊢
        omega
  · simp [Pipeline.arrival, Pipeline.raises] at keys notices ⊢
    omega

end Refines

namespace Pipeline

variable {self next : Pipeline} {out : List Event} {action : Action}

theorem coordinate_reports (handled : Handled) :
    ((self.coordinate handled).1.deliver (self.coordinate handled).2.1).publishOutcomes =
      self.publishOutcomes := by
  unfold coordinate
  split <;> simp

theorem work_reports (result : Except String Worked) :
    ((self.work result).1.deliver (self.work result).2.1).publishOutcomes =
      self.publishOutcomes := by
  cases result <;> simp [work]

theorem schedule_reports (input : SnoozeInput)
    (result : Except String (SnoozeScheduler × SnoozeOutcome)) :
    ((self.schedule input result).1.deliver (self.schedule input result).2.1).publishOutcomes =
      self.publishOutcomes := by
  cases result <;> simp [schedule]

namespace Reported

theorem start (hydratedStatuses : FiniteMap Key Status) :
    (Pipeline.start hydratedStatuses).Reported :=
  fun _ member => absurd member List.not_mem_nil

/-- The channel is left alone. -/
theorem kept (reported : self.Reported) (same : next.publishOutcomes = self.publishOutcomes) :
    next.Reported := by
  intro outcome member
  rw [same] at member
  exact reported outcome member

/-- The engine reports filled messages. -/
theorem sends (reported : self.Reported) {outcomes : List PublishOutcome}
    (filled : ∀ outcome ∈ outcomes, outcome.results ≠ [])
    (sent : next.publishOutcomes = self.publishOutcomes ++ outcomes) : next.Reported := by
  intro outcome member
  rw [sent] at member
  exact (List.mem_append.mp member).elim (reported outcome) (filled outcome)

/-- The engine sends no empty batch. -/
theorem step (reported : self.Reported) (fires : self.step action = some (next, out)) :
    next.Reported := by
  obtain ⟨turn, taken, rfl, _⟩ := turn_of_step fires
  cases taken with
  | input running => exact reported.kept (coordinate_reports _)
  | jobOutcome queue running => exact reported.kept (coordinate_reports _)
  | @publishOutcome outcome rest queue running =>
      have popped : ({ self with publishOutcomes := rest } : Pipeline).Reported :=
        fun later member => reported later (by rw [queue]; exact List.mem_cons_of_mem _ member)
      exact popped.kept (work_reports _)
  | snoozeOutcome queue running => exact reported.kept (work_reports _)
  | job queue running => exact reported.kept (work_reports _)
  | snoozeInput queue running => exact reported.kept (schedule_reports _ _)
  | expiry running expires => exact reported.kept (by simp)
  | @completion index delivered attempt engine outcomes returns =>
      refine reported.sends ?_ (by rw [deliver_byEngine])
      obtain ⟨front, back, _, again | spent⟩ := PublishEngine.complete_cases returns
      · obtain ⟨_, _, rfl, _⟩ := again
        simp
      · have response := @PublishEngine.handleCompletedWork_cases _
          { self.engine with inFlight := front ++ back } (.of delivered attempt)
        rw [← spent.2] at response
        rcases response with single | batched | flushed
        · cases single
          simp [PublishOutcome.results]
        · cases batched
          simp
        · cases flushed
          simp [PublishOutcome.results]
  | flush ticks =>
      refine reported.sends ?_ (by rw [deliver_byEngine])
      simp only [PublishEngine.tick, Option.ite_none_left_eq_some, Option.some.injEq,
        PublishEngine.flushCompletedBatch, Prod.mk.injEq] at ticks
      obtain ⟨filled, _, rfl⟩ := ticks
      simpa [PublishOutcome.results] using filled
  | publish queue => exact reported.kept (by simp)

end Reported

end Pipeline

end AcornAlarms
