import AcornAlarms.Lanes.View

/-!
# From an intent to its rollback

While nothing is recorded for a key its lane runs a fixed course: the job under way is
reconciled, the latest intent follows it, and a user intent that fails is replaced by
the confirmed entry, which is dispatched until it commits.
-/

namespace AcornAlarms

open Library

variable [Platform]

/-- Every turn leaves the latest intent of the key to its jobs. -/
def Pipeline.Undisturbed (key : Key) : List Event → Pipeline → Action → Prop :=
  fun _ self action => self.records action ≠ some key

/-- A computed undisturbed run whose end passes a check. -/
theorem Pipeline.undisturbed_of_check (key : Key) (start : Pipeline) (actions : List Action)
    (check : Pipeline → List Event → Bool)
    (passes : ((machine.exec (fun state action => decide (state.records action ≠ some key)) start
      actions).any fun (final, events) => check final events) = true) :
    ∃ final events, machine.Run (Undisturbed key) start actions events final ∧
      check final events = true :=
  Machine.run_of_check (by
    intro past state action allowed
    rw [decide_eq_true_eq] at allowed
    exact allowed) start actions check passes

/-- The job a rollback dispatches for the entry it restores. -/
def restoration (key : Key) (entry : Status × Nat) : Job := ⟨entry.2, key, entry.1, false⟩

variable {hydratedStatuses : FiniteMap Key Status} {earlier past out : List Event}
  {lanes next : Lanes} {key : Key}

/-- An allocated id of the latest intent owes its confirmation until its own job is
reconciled. -/
theorem Lanes.Step.still_owes {id : Nat} {status : Status} {confirmation : Confirmation}
    (step : lanes.Step out next) (ledger : Ledger hydratedStatuses earlier lanes.desk lanes.underway)
    (latest : lanes.desk.speculativeState.get? key = some (status, id))
    (newer : ∀ job, lanes.underway key = some job → job.id ≠ id)
    (owed : lanes.desk.pendingConfirmations.get? id = some confirmation) :
    next.desk.pendingConfirmations.get? id = some confirmation := by
  have known := ledger.latest latest
  have settled : ∀ {job ok}, lanes.stage job.key = .settled job ok →
      (lanes.desk.settle job).pendingConfirmations.get? id = some confirmation := by
    intro job ok arrived
    have under := Lanes.underway_settled arrived
    rw [AlarmStateCoordinator.settle_pending, if_neg]
    · exact owed
    · rintro rfl
      by_cases same : job.key = key
      · rw [same] at under
        exact newer job under rfl
      · rw [ledger.apart known (ledger.job under).2 same] at owed
        cases owed
  cases step with
  | still _ => exact owed
  | start _ _ _ _ desk _ | displace _ _ _ desk _ =>
      have below := ledger.below known
      rw [desk, AlarmStateCoordinator.record_pending, if_neg (by omega)]
      exact owed
  | travel _ desk _ | report desk _ =>
      rw [desk]
      exact owed
  | commitLast arrived _ desk _ | commitNext arrived _ _ _ desk _
  | rollBack arrived _ _ _ desk _ | redispatch arrived _ _ _ desk _ =>
      rw [desk]
      exact settled arrived

/-- What a rollback restores owes no confirmation. -/
theorem Ledger.base_settled {desk : AlarmStateCoordinator} {underway : Key → Option Job}
    (ledger : Ledger hydratedStatuses earlier desk underway) (key : Key) :
    desk.pendingConfirmations.get? (desk.confirmedOrDefault key).2 = none := by
  unfold AlarmStateCoordinator.confirmedOrDefault
  cases found : desk.confirmedState.get? key with
  | none => exact ledger.reserved
  | some entry => exact ledger.settled found

/-- The job of the key is under way for its latest intent; a rollback would restore
`base`. `shown` are the statuses confirmed for the key before the job. -/
structure Pursues (key : Key) (job : Job) (base : Status × Nat) (shown : List Status)
    (past : List Event) (lanes : Lanes) : Prop where
  under : lanes.underway key = some job
  latest : lanes.desk.speculativeState.get? key = some (job.status, job.id)
  base : lanes.desk.confirmedOrDefault key = base
  written : writtenOf key past = shown

/-- The key is idle with a confirmed entry. -/
structure Rests (key : Key) (entry : Status × Nat) (shown : List Status) (past : List Event)
    (lanes : Lanes) : Prop where
  idle : lanes.stage key = .idle
  confirmed : lanes.desk.confirmedState.get? key = some entry
  written : writtenOf key past = shown

/-- A user intent waits for the job under way for its key. -/
structure Waits (key : Key) (front user : Job) (base : Status × Nat) (shown : List Status)
    (past : List Event) (lanes : Lanes) : Prop where
  under : lanes.underway key = some front
  latest : lanes.desk.speculativeState.get? key = some (user.status, user.id)
  newer : user.id ≠ front.id
  owed : ∃ confirmation, lanes.desk.pendingConfirmations.get? user.id = some confirmation
  base : lanes.desk.confirmedOrDefault key = base
  written : writtenOf key past = shown

theorem confirmedOrDefault_of_same {desk after : AlarmStateCoordinator}
    (same : after.confirmedState.get? key = desk.confirmedState.get? key) :
    after.confirmedOrDefault key = desk.confirmedOrDefault key := by
  rw [AlarmStateCoordinator.confirmedOrDefault, same, AlarmStateCoordinator.confirmedOrDefault]

theorem confirmedOrDefault_of_confirmed {desk : AlarmStateCoordinator} {entry : Status × Nat}
    (found : desk.confirmedState.get? key = some entry) : desk.confirmedOrDefault key = entry := by
  rw [AlarmStateCoordinator.confirmedOrDefault, found]
  rfl

/-- A settled job owes nothing, and settling it leaves nothing owed where nothing was. -/
theorem settle_owes_nothing {desk : AlarmStateCoordinator} {job : Job} {id : Nat}
    (nothing : id = job.id ∨ desk.pendingConfirmations.get? id = none) :
    (desk.settle job).pendingConfirmations.contains id = false := by
  rw [FiniteMap.contains, AlarmStateCoordinator.settle_pending]
  rcases nothing with same | nothing
  · rw [if_pos same]
    rfl
  · rw [nothing, ite_self]
    rfl

/-- A lane whose job arrived holds that job. -/
theorem Lanes.underway_arrived {job : Job} {ok : Bool}
    (arrived : lanes.stage key = .settled job ok) : lanes.underway key = some job := by
  rw [Lanes.underway, arrived]
  rfl

section

variable {job : Job} {base : Status × Nat} {shown : List Status}

/-- The job is still under way, has committed, or failed; then its status is dispatched
again, or the base of a user job. -/
theorem Pursues.step (pursues : Pursues key job base shown past lanes)
    (ledger : Ledger hydratedStatuses earlier lanes.desk lanes.underway)
    (step : lanes.Step out next) (unrecorded : ∀ event ∈ out, event.recordKey? ≠ some key) :
    (Pursues key job base shown (past ++ out) next ∧ Lanes.Unsettled key out) ∨
    (Rests key (job.status, job.id) (shown ++ [job.status]) (past ++ out) next ∧
      ∀ other, .failed other ∉ out) ∨
    (Pursues key
        (restoration key (if job.userInitiated = true then base else (job.status, job.id)))
        base shown (past ++ out) next ∧
      ∀ other, .failed other ∈ out ↔ other = job) := by
  have named : ∀ {other ok}, lanes.stage key = .settled other ok → other = job := by
    intro other ok arrived
    exact Option.some.inj ((Lanes.underway_arrived arrived).symm.trans pursues.under)
  cases step.view unrecorded with
  | stays under latest confirmed written unsettled =>
      refine .inl ⟨⟨under.trans pursues.under, latest.trans pursues.latest, ?_, ?_⟩, unsettled⟩
      · rw [confirmedOrDefault_of_same confirmed]
        exact pursues.base
      · rw [writtenOf_append, pursues.written, written, List.append_nil]
  | commitLast arrived latest confirmed stage written committed unfailed =>
      obtain rfl := named arrived
      refine .inr (.inl ⟨⟨stage, confirmed, ?_⟩, unfailed⟩)
      rw [writtenOf_append, pursues.written, written]
  | commitNext arrived latest newer kept confirmed stage written dispatched committed unfailed =>
      obtain rfl := named arrived
      rw [pursues.latest] at latest
      exact absurd (Prod.mk.inj (Option.some.inj latest)).2.symm newer
  | @fails other status id entry arrived latest chosen kept confirmed stage dispatched failed written =>
      obtain rfl := named arrived
      rw [pursues.latest] at latest
      obtain ⟨rfl, rfl⟩ := Prod.mk.inj (Option.some.inj latest)
      rw [pursues.base] at chosen
      simp only [true_and] at chosen
      subst chosen
      -- Neither the base nor the settled job owes a confirmation.
      have settled : (lanes.desk.settle other).pendingConfirmations.contains
          (if other.userInitiated = true then base else (other.status, other.id)).2 = false := by
        by_cases user : other.userInitiated = true
        · rw [if_pos user, ← pursues.base]
          exact settle_owes_nothing (.inr (ledger.base_settled key))
        · rw [if_neg user]
          exact settle_owes_nothing (.inl rfl)
      rw [settled] at stage
      refine .inr (.inr ⟨⟨?_, kept, ?_, ?_⟩, failed⟩)
      · rw [Lanes.underway, stage]
        rfl
      · rw [confirmedOrDefault_of_same confirmed]
        exact pursues.base
      · rw [writtenOf_append, pursues.written, written, List.append_nil]

/-- What becomes of a user job: it is under way, committed, rolled back or being rolled
back. -/
inductive Attempt (key : Key) (user : Job) (base : Status × Nat) (shown : List Status)
    (past : List Event) (lanes : Lanes) : Prop where
  | pursued (pursues : Pursues key user base shown past lanes) (unfailed : .failed user ∉ past)
  | kept (rests : Rests key (user.status, user.id) (shown ++ [user.status]) past lanes)
      (unfailed : .failed user ∉ past)
  | restoring (pursues : Pursues key (restoration key base) base shown past lanes)
      (failed : .failed user ∈ past)
  | restored (rests : Rests key base (shown ++ [base.1]) past lanes) (failed : .failed user ∈ past)

/-- An idle key stays idle while nothing is recorded for it. -/
theorem Rests.step {entry : Status × Nat} (rests : Rests key entry shown past lanes)
    (step : lanes.Step out next) (unrecorded : ∀ event ∈ out, event.recordKey? ≠ some key) :
    Rests key entry shown (past ++ out) next ∧ Lanes.Unsettled key out := by
  cases step.view unrecorded with
  | stays under latest confirmed written unsettled =>
      have idle : next.stage key = .idle := by
        apply Stage.eq_idle_of_job?
        rw [Lanes.underway, Lanes.underway, rests.idle] at under
        exact under
      refine ⟨⟨idle, confirmed.trans rests.confirmed, ?_⟩, unsettled⟩
      rw [writtenOf_append, rests.written, written, List.append_nil]
  | commitLast arrived _ _ _ _ _ _ | commitNext arrived _ _ _ _ _ _ _ _ _
  | fails arrived _ _ _ _ _ _ _ _ =>
      rw [rests.idle] at arrived
      cases arrived

theorem unfailed_append {user : Job} (unfailed : .failed user ∉ past)
    (quiet : .failed user ∉ out) : .failed user ∉ past ++ out := by
  simp [unfailed, quiet]

/-- An attempt runs its course. -/
theorem Attempt.step {user : Job} (attempt : Attempt key user base shown past lanes)
    (named : user.key = key) (initiated : user.userInitiated = true)
    (ledger : Ledger hydratedStatuses earlier lanes.desk lanes.underway)
    (step : lanes.Step out next) (unrecorded : ∀ event ∈ out, event.recordKey? ≠ some key) :
    Attempt key user base shown (past ++ out) next := by
  cases attempt with
  | pursued pursues unfailed =>
      rcases pursues.step ledger step unrecorded with
        ⟨pursues, quiet⟩ | ⟨rests, quiet⟩ | ⟨pursues, failed⟩
      · exact .pursued pursues (unfailed_append unfailed (quiet user named).1)
      · exact .kept rests (unfailed_append unfailed (quiet user))
      · rw [if_pos initiated] at pursues
        exact .restoring pursues (List.mem_append_right _ ((failed user).mpr rfl))
  | kept rests unfailed =>
      obtain ⟨rests, quiet⟩ := rests.step step unrecorded
      exact .kept rests (unfailed_append unfailed (quiet user named).1)
  | restoring pursues failed =>
      rcases pursues.step ledger step unrecorded with ⟨pursues, _⟩ | ⟨rests, _⟩ | ⟨pursues, _⟩
      · exact .restoring pursues (List.mem_append_left _ failed)
      · exact .restored rests (List.mem_append_left _ failed)
      · exact .restoring pursues (List.mem_append_left _ failed)
  | restored rests failed =>
      exact .restored (rests.step step unrecorded).1 (List.mem_append_left _ failed)

/-- The job in front is still under way, or it is reconciled and the user job follows. -/
theorem Waits.step {front user : Job} (waits : Waits key front user base shown past lanes)
    (named : user.key = key) (initiated : user.userInitiated = true)
    (ledger : Ledger hydratedStatuses earlier lanes.desk lanes.underway)
    (step : lanes.Step out next) (unrecorded : ∀ event ∈ out, event.recordKey? ≠ some key) :
    (Waits key front user base shown (past ++ out) next ∧ Lanes.Unsettled key out) ∨
    (Pursues key user (front.status, front.id) (shown ++ [front.status]) (past ++ out) next ∧
      .dispatched user ∈ out ∧ .committed front ∈ out ∧ ∀ other, .failed other ∉ out) ∨
    (Pursues key user base shown (past ++ out) next ∧ .dispatched user ∈ out ∧
      ∀ other, .failed other ∈ out ↔ other = front) := by
  have front_of : ∀ {other ok}, lanes.stage key = .settled other ok → other = front := by
    intro other ok arrived
    exact Option.some.inj ((Lanes.underway_arrived arrived).symm.trans waits.under)
  obtain ⟨confirmation, owed⟩ := waits.owed
  have contains : lanes.desk.pendingConfirmations.contains user.id = true := by
    rw [FiniteMap.contains, owed]
    rfl
  have same : (⟨user.id, key, user.status, true⟩ : Job) = user := by
    rw [← named, ← initiated]
  cases step.view unrecorded with
  | stays under latest confirmed written unsettled =>
      have newer : ∀ job, lanes.underway key = some job → job.id ≠ user.id := by
        intro job found
        rw [waits.under] at found
        obtain rfl := Option.some.inj found
        exact waits.newer.symm
      refine .inl ⟨⟨under.trans waits.under, latest.trans waits.latest, waits.newer,
        ⟨confirmation, step.still_owes ledger waits.latest newer owed⟩, ?_, ?_⟩, unsettled⟩
      · rw [confirmedOrDefault_of_same confirmed]
        exact waits.base
      · rw [writtenOf_append, waits.written, written, List.append_nil]
  | commitLast arrived latest confirmed stage written committed unfailed =>
      obtain rfl := front_of arrived
      rw [waits.latest] at latest
      exact absurd (Prod.mk.inj (Option.some.inj latest)).2 waits.newer
  | commitNext arrived latest newer kept confirmed stage written dispatched committed unfailed =>
      obtain rfl := front_of arrived
      rw [waits.latest] at latest
      obtain ⟨rfl, rfl⟩ := Prod.mk.inj (Option.some.inj latest)
      rw [contains, same] at stage dispatched
      refine .inr (.inl ⟨⟨?_, kept, confirmedOrDefault_of_confirmed confirmed, ?_⟩, dispatched,
        committed, unfailed⟩)
      · rw [Lanes.underway, stage]
        rfl
      · rw [writtenOf_append, waits.written, written]
  | @fails other status id entry arrived latest chosen kept confirmed stage dispatched failed written =>
      obtain rfl := front_of arrived
      rw [waits.latest] at latest
      obtain ⟨rfl, rfl⟩ := Prod.mk.inj (Option.some.inj latest)
      rw [if_neg fun both => waits.newer both.1] at chosen
      subst chosen
      rw [AlarmStateCoordinator.settle_contains waits.newer, contains, same] at stage dispatched
      refine .inr (.inr ⟨⟨?_, kept, ?_, ?_⟩, dispatched, failed⟩)
      · rw [Lanes.underway, stage]
        rfl
      · rw [confirmedOrDefault_of_same confirmed]
        exact waits.base
      · rw [writtenOf_append, waits.written, written, List.append_nil]

/-- What becomes of a user intent that waits for the job in front: it still waits, or it is
attempted with what the job in front left behind. -/
inductive Succession (key : Key) (front user : Job) (base : Status × Nat) (shown : List Status)
    (past : List Event) (lanes : Lanes) : Prop where
  | waits (waits : Waits key front user base shown past lanes) (unfailed : .failed user ∉ past)
      (pending : .failed front ∉ past)
  | followed (attempt : Attempt key user (front.status, front.id) (shown ++ [front.status]) past lanes)
      (dispatched : .dispatched user ∈ past) (committed : .committed front ∈ past)
  | instead (attempt : Attempt key user base shown past lanes)
      (dispatched : .dispatched user ∈ past) (failed : .failed front ∈ past)

theorem Succession.step {front user : Job}
    (succession : Succession key front user base shown past lanes)
    (named : user.key = key) (initiated : user.userInitiated = true) (apart : user.id ≠ front.id)
    (frontKey : front.key = key)
    (ledger : Ledger hydratedStatuses earlier lanes.desk lanes.underway)
    (step : lanes.Step out next) (unrecorded : ∀ event ∈ out, event.recordKey? ≠ some key) :
    Succession key front user base shown (past ++ out) next := by
  cases succession with
  | waits waits unfailed pending =>
      rcases waits.step named initiated ledger step unrecorded with
        ⟨waits, quiet⟩ | ⟨pursues, dispatched, committed, quiet⟩ | ⟨pursues, dispatched, failed⟩
      · exact .waits waits (unfailed_append unfailed (quiet user named).1)
          (unfailed_append pending (quiet front frontKey).1)
      · exact .followed (.pursued pursues (unfailed_append unfailed (quiet user)))
          (List.mem_append_right _ dispatched) (List.mem_append_right _ committed)
      · refine .instead (.pursued pursues (unfailed_append unfailed ?_))
          (List.mem_append_right _ dispatched) (List.mem_append_right _ ((failed front).mpr rfl))
        rw [failed user]
        rintro rfl
        exact apart rfl
  | followed attempt dispatched committed =>
      exact .followed (attempt.step named initiated ledger step unrecorded)
        (List.mem_append_left _ dispatched) (List.mem_append_left _ committed)
  | instead attempt dispatched failed =>
      exact .instead (attempt.step named initiated ledger step unrecorded)
        (List.mem_append_left _ dispatched) (List.mem_append_left _ failed)

end

/-- What the undisturbed steps of the lanes keep for a key holds after every undisturbed
run of the pipeline. -/
theorem Refines.undisturbed {pipeline final : Pipeline} {actions : List Action}
    {later : List Event} (refines : Refines pipeline lanes)
    (ledger : Ledger hydratedStatuses earlier lanes.desk lanes.underway)
    (run : Pipeline.machine.Run (Pipeline.Undisturbed key) pipeline actions later final)
    (holds : List Event → Lanes → Prop) (initial : holds [] lanes)
    (kept : ∀ {past lanes out next}, holds past lanes →
      Ledger hydratedStatuses (earlier ++ past) lanes.desk lanes.underway →
      lanes.Step out next → (∀ event ∈ out, event.recordKey? ≠ some key) →
      holds (past ++ out) next) :
    ∃ lanes, Refines final lanes ∧
      Ledger hydratedStatuses (earlier ++ later) lanes.desk lanes.underway ∧ holds later lanes := by
  refine run.history (fun past state => ∃ lanes, Refines state lanes ∧
    Ledger hydratedStatuses (earlier ++ past) lanes.desk lanes.underway ∧ holds past lanes)
    ⟨lanes, refines, by rw [List.append_nil]; exact ledger, initial⟩ ?_
  rintro past state action next out ⟨lanes, refines, ledger, before⟩ undisturbed fires
  obtain ⟨nextLanes, step, after⟩ := refines.step fires
  refine ⟨nextLanes, after, ?_, kept before ledger step ?_⟩
  · rw [← List.append_assoc]
    exact step.ledger ledger
  · intro event member records
    exact undisturbed (refines.records fires member records)

/-- The latest status of a key is that of an entry, which is confirmed once the key has no
job outstanding. -/
structure Pipeline.Stands (pipeline : Pipeline) (key : Key) (entry : Status × Nat) : Prop where
  latest : pipeline.coordinator.getLatestStatus key = some entry.1
  confirmed : pipeline.outstanding key = [] →
    pipeline.coordinator.confirmedState.get? key = some entry

section

variable {pipeline : Pipeline} {job user : Job} {base entry : Status × Nat} {shown : List Status}

theorem Pursues.stands (pursues : Pursues key job base shown past lanes)
    (refines : Refines pipeline lanes) : pipeline.Stands key (job.status, job.id) where
  latest := by
    rw [refines.desk, AlarmStateCoordinator.getLatestStatus, pursues.latest]
    rfl
  confirmed := by
    intro quiet
    have under := pursues.under
    rw [Lanes.underway, refines.idle_of_outstanding quiet] at under
    cases under

theorem Waits.stands {front : Job} (waits : Waits key front user base shown past lanes)
    (refines : Refines pipeline lanes) : pipeline.Stands key (user.status, user.id) where
  latest := by
    rw [refines.desk, AlarmStateCoordinator.getLatestStatus, waits.latest]
    rfl
  confirmed := by
    intro quiet
    have under := waits.under
    rw [Lanes.underway, refines.idle_of_outstanding quiet] at under
    cases under

theorem Rests.stands (rests : Rests key entry shown past lanes) (refines : Refines pipeline lanes) :
    pipeline.Stands key entry where
  latest := by
    have empty : lanes.desk.speculativeState.get? key = none := by
      rw [← Option.not_isSome_iff_eq_none, lanes.busy key, rests.idle]
      simp [Stage.job?]
    rw [refines.desk, AlarmStateCoordinator.getLatestStatus, empty, rests.confirmed]
    rfl
  confirmed := by
    intro _
    rw [refines.desk]
    exact rests.confirmed

/-- A user job that failed leaves what it was rolled back to. -/
theorem Attempt.stands_failed (attempt : Attempt key user base shown past lanes)
    (refines : Refines pipeline lanes) (failed : .failed user ∈ past) :
    pipeline.Stands key base := by
  cases attempt with
  | pursued _ unfailed | kept _ unfailed => exact absurd failed unfailed
  | restoring pursues _ => exact pursues.stands refines
  | restored rests _ => exact rests.stands refines

/-- A user job that failed published nothing; its rollback publishes what it restores, once. -/
theorem Attempt.delivered_failed (attempt : Attempt key user base shown past lanes)
    (balanced : deliveredOf key past = writtenOf key past ++ (lanes.stage key).unwritten)
    (failed : .failed user ∈ past) :
    (deliveredOf key past = shown ∨ deliveredOf key past = shown ++ [base.1]) ∧
      (lanes.stage key = .idle → deliveredOf key past = shown ++ [base.1]) := by
  cases attempt with
  | pursued _ unfailed | kept _ unfailed => exact absurd failed unfailed
  | restoring pursues _ =>
      rw [pursues.written] at balanced
      refine ⟨?_, fun idle => ?_⟩
      · rw [balanced]
        rcases Stage.unwritten_cases pursues.under with none | one
        · exact .inl (by rw [none, List.append_nil])
        · exact .inr (by rw [one]; rfl)
      · have under := pursues.under
        rw [Lanes.underway, idle] at under
        cases under
  | restored rests _ =>
      have rest : deliveredOf key past = shown ++ [base.1] := by
        rw [balanced, rests.written, rests.idle]
        exact List.append_nil _
      exact ⟨.inr rest, fun _ => rest⟩

/-- A user job that did not fail leaves its own status. -/
theorem Attempt.stands_unfailed (attempt : Attempt key user base shown past lanes)
    (refines : Refines pipeline lanes) (unfailed : .failed user ∉ past) :
    pipeline.Stands key (user.status, user.id) := by
  cases attempt with
  | pursued pursues _ => exact pursues.stands refines
  | kept rests _ => exact rests.stands refines
  | restoring _ failed | restored _ failed => exact absurd failed unfailed

theorem Succession.stands {front : Job}
    (succession : Succession key front user base shown past lanes)
    (refines : Refines pipeline lanes) (unfailed : .failed user ∉ past) :
    pipeline.Stands key (user.status, user.id) := by
  cases succession with
  | waits waits _ _ => exact waits.stands refines
  | followed attempt _ _ | instead attempt _ _ => exact attempt.stands_unfailed refines unfailed

/-- Once the job in front failed, the user job was dispatched. -/
theorem Succession.dispatched {front : Job}
    (succession : Succession key front user base shown past lanes)
    (failed : .failed front ∈ past) : .dispatched user ∈ past := by
  cases succession with
  | waits _ _ pending => exact absurd failed pending
  | followed _ dispatched _ | instead _ dispatched _ => exact dispatched

end

end AcornAlarms
