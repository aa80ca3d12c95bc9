import AcornAlarms.Lanes.Books

/-!
# Snapshots read committed writes

A snapshot shows each confirmed alarm once, and a user whose update was confirmed before the
request finds it there, unless a later commit of the key replaced it. The workflow handler may
report its jobs in any order, or stop.
-/

namespace AcornAlarms

open Library

section

variable [Platform]

/-- A list with each confirmed alarm once: the statuses that are neither `Ok` nor
`Unbypassed`. -/
def Shows (confirmedState : AlarmsCache) (statuses : List Status) : Prop :=
  ∃ keys : List Key, keys.Nodup ∧
    (∀ key, key ∈ keys ↔ ∃ status id, confirmedState.get? key = some (status, id) ∧
      status.state.value ≠ .ok ∧ status.state.value ≠ .unbypassed) ∧
    keys.map (fun key => (confirmedState.get? key).map Prod.fst) = statuses.map some

namespace AlarmStateCoordinator

/-- Whether a snapshot shows the status of an entry. -/
def listed (entry : Key × Status × Nat) : Bool :=
  entry.2.1.state.value ≠ .ok && entry.2.1.state.value ≠ .unbypassed

theorem snapshotOf_eq (self : AlarmStateCoordinator) :
    self.snapshotOf = (self.confirmedState.entries.filter listed).map fun entry => entry.2.1 := by
  rw [← List.filterMap_eq_map, List.filterMap_filter, snapshotOf]
  apply List.filterMap_congr
  rintro entry -
  change (if entry.2.1.state.value = .ok ∨ entry.2.1.state.value = .unbypassed then none
    else some entry.2.1) = if listed entry then some entry.2.1 else none
  by_cases hidden : entry.2.1.state.value = .ok ∨ entry.2.1.state.value = .unbypassed
  · rw [if_pos hidden]
    rcases hidden with ok | unbypassed
    · simp [listed, ok]
    · simp [listed, unbypassed]
  · rw [if_neg hidden]
    rw [not_or] at hidden
    simp [listed, hidden]

theorem snapshotOf_shows (self : AlarmStateCoordinator) :
    Shows self.confirmedState self.snapshotOf := by
  refine ⟨(self.confirmedState.entries.filter listed).map Prod.fst, ?_, ?_, ?_⟩
  · have names : self.confirmedState.entries.map Prod.fst = self.confirmedState.keys := by
      simp [FiniteMap.entries, FiniteMap.keys, AList.keys, List.keys, Function.comp_def]
    have distinct := self.confirmedState.keys_nodup
    rw [← names] at distinct
    exact distinct.sublist (List.filter_sublist.map Prod.fst)
  · intro key
    simp only [List.mem_map, List.mem_filter, listed, Prod.exists, exists_and_right, exists_eq_right,
      Bool.and_eq_true, decide_eq_true_eq, FiniteMap.mem_entries_iff]
  · rw [snapshotOf_eq, List.map_map, List.map_map]
    apply List.map_congr_left
    rintro ⟨key, status, id⟩ member
    have found := (FiniteMap.mem_entries_iff _ _ _).mp (List.mem_of_mem_filter member)
    simp [found]

end AlarmStateCoordinator

/-- Serving a snapshot changes nothing. -/
theorem CoordinatorLoop.step_snapshotRequest {loop : CoordinatorLoop} (running : loop.running = true)
    (sender : Nat) (now : Int) : loop.step (.message (.snapshotRequest sender) now) =
      some (loop, [.snapshot sender loop.coordinator.snapshotOf]) := by
  cases loop
  subst running
  simp [step, select, finish, AlarmStateCoordinator.handleMessage,
    AlarmStateCoordinator.handleSnapshot, Handled.done]

/-- A confirmed entry is hydrated, or that of a committed job. -/
theorem Books.confirmed_origin {hydratedStatuses : FiniteMap Key Status} {past : List Event}
    {desk : AlarmStateCoordinator} (books : Books hydratedStatuses past desk) {key : Key}
    {status : Status} {id : Nat} (found : desk.confirmedState.get? key = some (status, id)) :
    hydratedStatuses.get? key = some status ∨
      ∃ job, .committed job ∈ past ∧ job.status = status := by
  rw [books.store, Option.or_eq_some_iff] at found
  rcases found with committed | ⟨_, hydrated⟩
  · obtain ⟨job, last, same⟩ := Option.map_eq_some_iff.mp committed
    obtain ⟨event, member, commits⟩ := List.mem_filterMap.mp (List.mem_of_getLast? last)
    cases event with
    | committed other =>
        simp only [Event.commit?, Option.ite_none_right_eq_some, Option.some.injEq] at commits
        obtain ⟨_, rfl⟩ := commits
        exact .inr ⟨other, member, (Prod.mk.inj same).1⟩
    | _ => cases commits
  · obtain ⟨found, present, same⟩ := Option.map_eq_some_iff.mp hydrated
    rw [(Prod.mk.inj same).1] at present
    exact .inl present

/-- A snapshot has the status of every update confirmed before it, or of a later commit of the
key, and shows what is confirmed. -/
theorem snapshot_reads_commits {hydratedStatuses : FiniteMap Key Status}
    {actions : List CoordinatorLoop.Action} {events out : List Event}
    {loop next : CoordinatorLoop} {sender : Nat} {now : Int}
    (run : CoordinatorLoop.machine.Run Machine.Every (.start hydratedStatuses) actions events loop)
    (fires : loop.step (.message (.snapshotRequest sender) now) = some (next, out)) :
    ∃ statuses, out = [.snapshot sender statuses] ∧ next = loop ∧
      Shows loop.coordinator.confirmedState statuses ∧
      (∀ status ∈ statuses, (∃ key, hydratedStatuses.get? key = some status) ∨
        ∃ job, .committed job ∈ events ∧ job.status = status) ∧
      ∀ id key confirmation, .resolved id key confirmation (.ok ()) ∈ events →
        ∃ before job after, committedOf key events = before ++ job :: after ∧
          job.id = id ∧ .admitted id key job.status confirmation ∈ events ∧
          loop.coordinator.confirmedState.get? key =
            some ((after.getLast?.getD job).status, (after.getLast?.getD job).id) := by
  have running : loop.running = true :=
    (Option.ite_none_right_eq_some.mp fires).1
  have served := CoordinatorLoop.step_snapshotRequest running sender now
  obtain ⟨rfl, rfl⟩ := Prod.mk.inj (Option.some.inj (served.symm.trans fires))
  have kept := CoordinatorLoop.kept run running
  refine ⟨loop.coordinator.snapshotOf, rfl, rfl, loop.coordinator.snapshotOf_shows, ?_, ?_⟩
  · intro status member
    rw [AlarmStateCoordinator.snapshotOf_eq] at member
    obtain ⟨⟨key, found, id⟩, inside, rfl⟩ := List.mem_map.mp member
    have entry := (FiniteMap.mem_entries_iff _ _ _).mp (List.mem_of_mem_filter inside)
    rcases kept.books.confirmed_origin entry with hydrated | committed
    · exact .inl ⟨key, hydrated⟩
    · exact .inr committed
  · intro id key confirmation resolved
    obtain ⟨job, committed, same, named, admitted⟩ := kept.paid id key confirmation resolved
    have member : job ∈ committedOf key events :=
      List.mem_filterMap.mpr ⟨_, committed, by simp [Event.commit?, named]⟩
    obtain ⟨before, after, split⟩ := List.append_of_mem member
    refine ⟨before, job, after, split, same, admitted, ?_⟩
    rw [kept.books.store, split, List.getLast?_append, List.getLast?_cons]
    rfl

end

section

attribute [local instance] asciiPlatform

/-- A bypass of the pump that is published and confirmed. -/
def confirmedBypass : List CoordinatorLoop.Action :=
  [.message (.userUpdate pump (.bypass none) "operator" 7) 0, .report 0 true, .jobOutcome 0]

/-- The snapshot after it has the bypass. -/
theorem snapshot_reads_commits_bypass :
    ∃ (loop : CoordinatorLoop) (events : List Event) (before after : List Job) (job : Job),
      CoordinatorLoop.machine.Run Machine.Every (.start .empty) confirmedBypass events loop ∧
      .resolved 1 pump 7 (.ok ()) ∈ events ∧ committedOf pump events = before ++ job :: after ∧
      job.id = 1 ∧ loop.coordinator.confirmedState.get? pump =
        some ((after.getLast?.getD job).status, (after.getLast?.getD job).id) := by
  obtain ⟨loop, events, run, check⟩ := CoordinatorLoop.run_of_check .empty confirmedBypass
    (fun loop events => loop.running && decide (.resolved 1 pump 7 (.ok ()) ∈ events)) (by decide)
  simp only [Bool.and_eq_true, decide_eq_true_eq] at check
  obtain ⟨running, resolved⟩ := check
  have served := CoordinatorLoop.step_snapshotRequest running 0 0
  obtain ⟨_, _, _, _, _, reads⟩ := snapshot_reads_commits run served
  obtain ⟨before, job, after, split, same, _, found⟩ := reads 1 pump 7 resolved
  exact ⟨loop, events, before, after, job, run, resolved, split, same, found⟩

end

end AcornAlarms
