import AcornAlarms.Lanes.Origins
import AcornAlarms.Lanes.Timers
import AcornAlarms.Properties.Coalescing
import AcornAlarms.Properties.Display

/-!
# Keys that no operator touches

As long as all updates of a key come from Redis, its jobs carry no wake time and owe no
confirmation: the scheduler has no timer for it, nothing of it is rolled back, and its latest
status is what the policy makes of the updates that were taken.
-/

namespace AcornAlarms

open Library

section

variable [Platform]

namespace Lanes

/-- All that is under way for a key was reported by Redis. -/
structure Reported (key : Key) (past : List Event) (lanes : Lanes) : Prop where
  latest : ∀ {status id}, lanes.desk.speculativeState.get? key = some (status, id) →
    status.wake = none
  job : ∀ {job}, lanes.underway key = some job → job.status.wake = none
  unadmitted : ∀ id status confirmation, .admitted id key status confirmation ∉ past
  timer : timerOf key past = none
  unexpired : expiredTimers key past = []

namespace Reported

variable {hydratedStatuses : FiniteMap Key Status} {key : Key} {past out : List Event}
  {lanes next : Lanes} {pipeline : Pipeline} {action : Action}

theorem start (hydratedStatuses : FiniteMap Key Status) (key : Key) :
    Reported key [] (.start hydratedStatuses) where
  latest := by simp [Lanes.start, AlarmStateCoordinator.new]
  job := by simp [Lanes.start, underway, Stage.job?]
  unadmitted := by simp
  timer := rfl
  unexpired := rfl

/-- No job of the key owes a confirmation. -/
theorem automated (reported : Reported key past lanes)
    (ledger : Ledger hydratedStatuses past lanes.desk lanes.underway) {job : Job}
    (under : lanes.underway key = some job) : job.userInitiated = false := by
  rw [ledger.owes under, FiniteMap.contains, Option.isSome_eq_false_iff, Option.isNone_iff_eq_none]
  by_contra present
  obtain ⟨confirmation, found⟩ := Option.ne_none_iff_exists'.mp present
  obtain ⟨other, status, admitted⟩ := ledger.pending found
  rcases (ledger.job under).2 with ⟨reserved, _⟩ | issued
  · have positive := (ledger.fresh (.inr ⟨confirmation, admitted⟩)).1
    rw [reserved] at positive
    exact absurd positive (Nat.lt_irrefl 0)
  · obtain ⟨rfl, _⟩ := ledger.unique (.inr ⟨confirmation, admitted⟩) issued
    exact reported.unadmitted _ _ _ admitted

/-- No timer of the key elapses. -/
theorem unelapsed (reported : Reported key past lanes) (timed : Timed past pipeline)
    (timing : Timing pipeline action out) : .expired key ∉ out := by
  intro expired
  obtain ⟨slot, registered⟩ := timing.registered expired
  have set := timed.registered key
  rw [registered, reported.timer] at set
  cases set

/-- No wake-up of the key is in transit. -/
theorem unwoken (reported : Reported key past lanes) (timed : Timed past pipeline) :
    pipeline.wakesOf key = 0 := by
  have transit := timed.transit key
  rw [reported.unexpired, List.length_nil] at transit
  omega

/-- A command of the key sets no timer. -/
theorem unset_answer (reported : Reported key past lanes) {other : Key} {wake : Option Timestamp}
    {accepted : Bool} (step : lanes.Step [.answered other wake accepted] next) :
    timerOf key (past ++ [.answered other wake accepted]) = none := by
  rw [timerOf_snoc, reported.timer]
  by_cases here : other = key
  · obtain ⟨job, verdict, under, same, _⟩ :=
      @Step.answered_of _ _ _ _ key step (by simp [answersOf, Event.answer?, here])
    obtain ⟨_, rfl, _⟩ := Event.answered.inj (List.cons.inj same).1
    cases accepted <;> simp [timerAfter, reported.job under]
  · cases accepted <;> simp [timerAfter, here]

/-- The timer of the key stays unset and none elapses. -/
theorem unset (reported : Reported key past lanes) (step : lanes.Step out next)
    (timed : Timed past pipeline) (timing : Timing pipeline action out) :
    timerOf key (past ++ out) = none ∧ expiredTimers key (past ++ out) = [] := by
  have unelapsed := reported.unelapsed timed timing
  refine ⟨?_, (expiredTimers_kept key past unelapsed).trans reported.unexpired⟩
  cases timing with
  | untimed quiet => exact (Timed.untimed key quiet).1.trans reported.timer
  | answered _ _ single =>
      subst single
      exact reported.unset_answer step
  | @expired _ _ other _ _ single =>
      subst single
      have apart : other ≠ key := fun same => unelapsed (by simp [same])
      rw [timerOf_snoc, timerAfter, if_neg apart, reported.timer]
  | @woke _ other _ rest _ _ first quiet =>
      subst first
      rw [List.append_cons, (Timed.untimed key quiet).1, timerOf_snoc]
      exact reported.timer

/-- A turn that records for the key nothing but an update from Redis. -/
theorem step (reported : Reported key past lanes) (step : lanes.Step out next)
    (ledger : Ledger hydratedStatuses past lanes.desk lanes.underway)
    (timed : Timed past pipeline) (timing : Timing pipeline action out)
    (unadmitted : ∀ id status confirmation, .admitted id key status confirmation ∉ out)
    (wakeless : ∀ id status, .recorded id key status ∈ out → status.wake = none) :
    Reported key (past ++ out) next := by
  obtain ⟨timer, unexpired⟩ := reported.unset step timed timing
  suffices kept : (∀ {status id}, next.desk.speculativeState.get? key = some (status, id) →
      status.wake = none) ∧ ∀ {job}, next.underway key = some job → job.status.wake = none by
    refine ⟨kept.1, kept.2, ?_, timer, unexpired⟩
    intro id status confirmation member
    rcases List.mem_append.mp member with early | late
    · exact reported.unadmitted id status confirmation early
    · exact unadmitted id status confirmation late
  rcases step.seen key with ⟨status, confirmation, records⟩ | ⟨_, view⟩
  · have plain : status.wake = none := by
      have member := records.reported
      cases confirmation with
      | none => exact wakeless _ _ member
      | some channel => exact absurd member (unadmitted _ _ _)
    constructor
    · intro other id found
      rw [records.desk, AlarmStateCoordinator.record_speculativeState,
        FiniteMap.get?_insert_self] at found
      obtain ⟨rfl, _⟩ := Prod.mk.inj (Option.some.inj found)
      exact plain
    · intro job under
      rcases records.lane with ⟨_, stage⟩ | ⟨_, stage⟩
      · rw [underway, stage, Function.update_self] at under
        obtain rfl := Option.some.inj under
        exact plain
      · rw [underway, stage] at under
        exact reported.job under
  · cases view with
    | stays under latest _ _ _ =>
        exact ⟨fun found => reported.latest (latest ▸ found),
          fun found => reported.job (under ▸ found)⟩
    | commitLast _ _ _ stage _ _ _ =>
        have idle : next.underway key = none := by rw [underway, stage]; rfl
        have dropped : next.desk.speculativeState.get? key = none := by
          have busy := next.busy key
          rw [stage] at busy
          exact Option.not_isSome_iff_eq_none.mp (by simp [busy, Stage.job?])
        exact ⟨fun found => absurd found (by simp [dropped]),
          fun found => absurd found (by simp [idle])⟩
    | commitNext _ latest _ kept _ stage _ _ _ _ =>
        refine ⟨fun found => reported.latest (latest.trans (kept.symm.trans found)), ?_⟩
        intro job under
        rw [underway, stage] at under
        obtain rfl := Option.some.inj under
        exact reported.latest latest
    | @fails failed _ _ _ arrived latest chosen kept _ stage _ _ _ =>
        have automated := reported.automated ledger (underway_arrived arrived)
        rw [if_neg (by simp [automated])] at chosen
        subst chosen
        refine ⟨fun found => reported.latest (latest.trans (kept.symm.trans found)), ?_⟩
        intro job under
        rw [underway, stage] at under
        obtain rfl := Option.some.inj under
        exact reported.latest latest

/-- No user job of the key fails. -/
theorem unfailed (reported : Reported key past lanes) (step : lanes.Step out next)
    (ledger : Ledger hydratedStatuses past lanes.desk lanes.underway) : UnfailedOf key out := by
  rintro job member rfl
  exact reported.automated ledger (underway_settled (step.fails member).1)

end Reported

end Lanes

/-- The updates of a key a turn takes. -/
def Action.updates (key : Key) : Action → List Status
  | .input (.automatedUpdate status) _ => if Key.from status = key then [status] else []
  | _ => []

omit [Platform] in
theorem latestAfter_append (prev : Option Status) (first second : List Status) :
    latestAfter prev (first ++ second) = latestAfter (latestAfter prev first) second :=
  List.foldl_append

/-- A turn that takes no input of the key takes no update of it. -/
theorem Pipeline.updates_eq_nil {pipeline : Pipeline} {action : Action} {key : Key}
    (apart : (pipeline.intake action).map Intake.key ≠ some key) : action.updates key = [] := by
  cases action with
  | input message now =>
      cases message with
      | automatedUpdate status =>
          have other : Key.from status ≠ key := fun same => apart (congrArg some same)
          rw [Action.updates, if_neg other]
      | _ => rfl
  | _ => rfl

/-- A pipeline in which only Redis reported the key, by these updates. -/
structure Pipeline.Tracked (hydratedStatuses : FiniteMap Key Status) (key : Key)
    (past : List Event) (updates : List Status) (pipeline : Pipeline) : Prop where
  lanes : ∃ lanes, Refines pipeline lanes ∧
    Ledger hydratedStatuses past lanes.desk lanes.underway ∧ lanes.Reported key past
  timed : Timed past pipeline
  latest : pipeline.coordinator.getLatestStatus key = latestAfter (hydratedStatuses.get? key) updates

namespace Pipeline.Tracked

variable {hydratedStatuses : FiniteMap Key Status} {key : Key} {past out : List Event}
  {updates : List Status} {pipeline next : Pipeline} {action : Action}

theorem start (hydratedStatuses : FiniteMap Key Status) (key : Key) :
    Tracked hydratedStatuses key [] [] (.start hydratedStatuses) where
  lanes := ⟨_, .initial hydratedStatuses, .start hydratedStatuses, .start hydratedStatuses key⟩
  timed := .start hydratedStatuses
  latest := by
    simp [Pipeline.start, AlarmStateCoordinator.new, AlarmStateCoordinator.getLatestStatus,
      Function.comp_def, latestAfter]

/-- An input of the key is an update. -/
theorem takes (tracked : Tracked hydratedStatuses key past updates pipeline)
    (untouched : ∀ taken user confirmation now,
      action ≠ .input (.userUpdate key taken user confirmation) now)
    {intake : Intake} (taken : pipeline.intake action = some intake) (named : intake.key = key) :
    ∃ status now, action = .input (.automatedUpdate status) now ∧ intake = .automated status ∧
      Key.from status = key := by
  cases action with
  | input message now =>
      cases message with
      | snapshotRequest sender => cases taken
      | automatedUpdate status =>
          obtain rfl := Option.some.inj taken
          exact ⟨status, now, rfl, rfl, named⟩
      | userUpdate other moved user confirmation =>
          obtain rfl := Option.some.inj taken
          obtain rfl : other = key := named
          exact absurd rfl (untouched _ _ _ _)
  | jobOutcome now =>
      simp only [Pipeline.intake] at taken
      split at taken
      · next other rest queue =>
          obtain rfl := Option.some.inj taken
          obtain rfl : other = key := (Key.from_buildWakeStatus ..).symm.trans named
          obtain ⟨lanes, _, _, reported⟩ := tracked.lanes
          have none := reported.unwoken tracked.timed
          rw [Pipeline.wakesOf, queue, List.count_cons_self] at none
          omega
      · cases taken
  | _ => cases taken

/-- A turn in which no operator touches the key. -/
theorem turn (tracked : Tracked hydratedStatuses key past updates pipeline)
    (fires : pipeline.step action = some (next, out))
    (untouched : ∀ taken user confirmation now,
      action ≠ .input (.userUpdate key taken user confirmation) now)
    (redis : ∀ status now, action = .input (.automatedUpdate status) now → FromRedis status) :
    Tracked hydratedStatuses key (past ++ out) (updates ++ action.updates key) next := by
  obtain ⟨lanes, refines, ledger, reported⟩ := tracked.lanes
  obtain ⟨nextLanes, step, after⟩ := refines.step fires
  have kept : nextLanes.Reported key (past ++ out) := by
    refine reported.step step ledger tracked.timed (refines.timing fires) ?_ ?_
    · intro id status confirmation member
      obtain ⟨taken, user, now, same, _⟩ := step_stems fires _ member
      exact untouched taken user confirmation now same
    · intro id status member
      obtain ⟨intake, taken, accepted⟩ := refines.accepted fires member rfl
      obtain ⟨named, rfl⟩ := intake.verdict_accepted accepted
      obtain ⟨status, now, same, rfl, _⟩ := tracked.takes untouched taken named.symm
      exact (redis status now same).wake
  refine ⟨⟨nextLanes, after, step.ledger ledger, kept⟩, tracked.timed.step refines fires, ?_⟩
  rw [latestAfter_append, ← tracked.latest]
  by_cases mine : (pipeline.intake action).map Intake.key = some key
  · obtain ⟨intake, taken, named⟩ := Option.map_eq_some_iff.mp mine
    obtain ⟨status, now, rfl, rfl, rfl⟩ := tracked.takes untouched taken named
    obtain ⟨verdict, latest, _⟩ := refines.takes fires taken
    rw [latest, verdict, Action.updates, if_pos rfl]
    exact Reference.after_automated _ status
  · have unrecorded : ∀ event ∈ out, event.recordKey? ≠ some key :=
      fun event member records => mine (records_intake (refines.records fires member records))
    rw [updates_eq_nil mine, after.desk, refines.desk]
    exact (step.view unrecorded).latest_kept ledger (reported.unfailed step ledger)

end Pipeline.Tracked

end

end AcornAlarms
