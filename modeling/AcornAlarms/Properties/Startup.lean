import AcornAlarms.Library.Union
import AcornAlarms.Properties.Naming
import AcornAlarms.Properties.Sessions

/-!
# Startup

The service starts with the last status the proxy reports for each key and with the bypasses the
topic ends with, unless one key is in both. From then on every snapshot shows a key by its last
commit, and before that as it was hydrated.
-/

namespace AcornAlarms

open Library

section

variable [Platform] {json : StatusJson} {snapshot : List Status} {records : List StringMessage}

/-- The last status the proxy reports for a key. -/
def lastReported (snapshot : List Status) (key : Key) : Option Status :=
  (snapshot.filter fun status => Key.from status = key).getLast?

/-- What a key is hydrated with: a bypass from the topic, or the report of the proxy. -/
def hydration (json : StatusJson) (snapshot : List Status) (records : List StringMessage)
    (key : Key) : Option Status :=
  ((reduceSnapshot json records).get? key).or (lastReported snapshot key)

theorem get?_loadAcnetHydration (snapshot : List Status) (key : Key) :
    (loadAcnetHydration snapshot).get? key = lastReported snapshot key := by
  induction snapshot using List.reverseRecOn with
  | nil => rfl
  | append_singleton front last ih =>
      rw [loadAcnetHydration, List.foldl_append, List.foldl_cons, List.foldl_nil,
        FiniteMap.get?_insert, lastReported, List.filter_append]
      by_cases same : key = Key.from last
      · simp [same]
      · have other : decide (Key.from last = key) = false := decide_eq_false (Ne.symm same)
        rw [if_neg same, List.filter_singleton, other, cond_false, List.append_nil]
        exact ih

/-- `merge_hydrated_statuses` inserts the entries of the second map. -/
theorem mergeHydratedStatuses_eq (accumulated incoming : FiniteMap Key Status) :
    mergeHydratedStatuses accumulated incoming =
      incoming.entries.foldlM (FiniteMap.insertNew .keyInMultipleSources) accumulated := rfl

/-- In whatever order the entries of the topic are merged, the service starts exactly if no key is
known to both sources, with what each source has for its keys, and otherwise names such a key. -/
theorem startup_sources (snapshot : List Status) {entries : List (Key × Status)}
    (order : entries.Perm (reduceSnapshot json records).entries) :
    (∃ hydratedStatuses,
        entries.foldlM (FiniteMap.insertNew HydrationError.keyInMultipleSources)
          (loadAcnetHydration snapshot) = .ok hydratedStatuses ∧
        ∀ key, (lastReported snapshot key = none ∨ (reduceSnapshot json records).get? key = none) ∧
          hydratedStatuses.get? key = hydration json snapshot records key) ∨
      ∃ key, (lastReported snapshot key).isSome = true ∧
        ((reduceSnapshot json records).get? key).isSome = true ∧
        entries.foldlM (FiniteMap.insertNew .keyInMultipleSources) (loadAcnetHydration snapshot) =
          .error (HydrationError.keyInMultipleSources key) := by
  obtain ⟨merged, folds, union⟩ | ⟨key, first, second, folds⟩ :=
    FiniteMap.union_cases order (loadAcnetHydration snapshot)
  · refine .inl ⟨merged, folds, fun key => ?_⟩
    rw [hydration, ← get?_loadAcnetHydration]
    exact union key
  · rw [get?_loadAcnetHydration] at first
    exact .inr ⟨key, first, second, folds⟩

/-- What the service can start with: the entries of the topic merge, in the order they come. -/
def Hydrates (json : StatusJson) (snapshot : List Status) (records : List StringMessage)
    (hydratedStatuses : FiniteMap Key Status) : Prop :=
  ∃ entries : List (Key × Status), entries.Perm (reduceSnapshot json records).entries ∧
    entries.foldlM (FiniteMap.insertNew HydrationError.keyInMultipleSources)
      (loadAcnetHydration snapshot) = .ok hydratedStatuses

/-- The order of the map is one of them. -/
theorem Hydrates.of_merge {hydratedStatuses : FiniteMap Key Status}
    (merges : mergeHydratedStatuses (loadAcnetHydration snapshot) (reduceSnapshot json records) =
      .ok hydratedStatuses) : Hydrates json snapshot records hydratedStatuses := by
  rw [mergeHydratedStatuses_eq] at merges
  exact ⟨_, .refl _, merges⟩

/-- A start has what the sources have for each key. -/
theorem Hydrates.get? {hydratedStatuses : FiniteMap Key Status}
    (hydrates : Hydrates json snapshot records hydratedStatuses) (key : Key) :
    hydratedStatuses.get? key = hydration json snapshot records key := by
  obtain ⟨entries, order, starts⟩ := hydrates
  obtain ⟨merged, folds, sources⟩ | ⟨key, -, -, folds⟩ := startup_sources snapshot order
  · obtain rfl : merged = hydratedStatuses := Except.ok.inj (folds.symm.trans starts)
    exact (sources key).2
  · rw [folds] at starts
    cases starts

namespace Service

variable {config : QueueCapacityConfig} {hydratedStatuses : FiniteMap Key Status}
  {admits : List Event → Service → Action → Prop} {actions : List Action} {events : List Event}
  {self : Service}

/-- What a key is shown as after some events: by its last commit, or as it was hydrated. -/
def shownAs (json : StatusJson) (snapshot : List Status) (records : List StringMessage)
    (seen : List AcornAlarms.Event) (key : Key) : Option Status :=
  (writtenOf key seen).getLast?.or (hydration json snapshot records key)

/-- Every snapshot shows each key once, by its last commit before the snapshot or else as the
sources had it at startup, and leaves out those that are neither alarms nor bypasses. -/
theorem operators_see (hydrates : Hydrates json snapshot records hydratedStatuses)
    (run : (machine config).Run admits (start hydratedStatuses) actions events self)
    {sender : Nat} {statuses : List Status} (showed : .showed sender (.ok statuses) ∈ events) :
    ∃ seen unseen, ∃ keys : List Key,
      tasks events = seen ++ .snapshot sender statuses :: unseen ∧ keys.Nodup ∧
      (∀ key, key ∈ keys ↔ ∃ status, shownAs json snapshot records seen key = some status ∧
        status.state.value ≠ .ok ∧ status.state.value ≠ .unbypassed) ∧
      keys.map (shownAs json snapshot records seen) = statuses.map some := by
  obtain ⟨seen, unseen, split⟩ := List.append_of_mem (mem_tasks.mpr ((pictured run).shown showed))
  obtain ⟨_, pipeline⟩ := tasks_run run
  obtain ⟨confirmedState, ⟨keys, distinct, listed, shown⟩, written⟩ :=
    Pipeline.snapshot_written pipeline split
  have current : ∀ key, (confirmedState.get? key).map Prod.fst =
      shownAs json snapshot records seen key := by
    intro key
    rw [written key, hydrates.get? key, shownAs]
  refine ⟨seen, unseen, keys, split, distinct, fun key => ?_, ?_⟩
  · rw [listed, ← current key]
    constructor
    · rintro ⟨status, id, found, visible⟩
      exact ⟨status, by rw [found]; rfl, visible⟩
    · rintro ⟨status, found, visible⟩
      obtain ⟨⟨_, id⟩, held, rfl⟩ := Option.map_eq_some_iff.mp found
      exact ⟨_, id, held, visible⟩
  · rw [← shown]
    exact List.map_congr_left fun key _ => (current key).symm

end Service

end

section

attribute [local instance] asciiPlatform

/-- The topic restores the bypass of the beam. -/
theorem reduceSnapshot_beam :
    reduceSnapshot beamJson [bypassRecord " beam#EPICS"] = .insert .empty beam servedBypass :=
  reduceSnapshot_bypassRecord rfl rfl

/-- The service starts with the bypass and with the proxy's report of the pump. -/
theorem startup_sources_beam :
    ∃ hydratedStatuses,
      Hydrates beamJson [pumpReading "major"] [bypassRecord " beam#EPICS"] hydratedStatuses ∧
      hydratedStatuses.get? pump = some (pumpReading "major") ∧
      hydratedStatuses.get? beam = some servedBypass := by
  have order := List.Perm.refl (reduceSnapshot beamJson [bypassRecord " beam#EPICS"]).entries
  obtain ⟨hydratedStatuses, starts, sources⟩ | ⟨key, reported, bypassed, -⟩ :=
    startup_sources [pumpReading "major"] order
  · refine ⟨hydratedStatuses, ⟨_, order, starts⟩, ?_, ?_⟩
    · rw [(sources pump).2, hydration, reduceSnapshot_beam]
      rfl
    · rw [(sources beam).2, hydration, reduceSnapshot_beam]
      rfl
  · rw [reduceSnapshot_beam, FiniteMap.get?_insert] at bypassed
    by_cases same : key = beam
    · subst same
      cases reported
    · rw [if_neg same] at bypassed
      cases bypassed

namespace Service

/-- An operator bypasses the pump and asks for the alarms. -/
def bypassSeen : List Action :=
  bypassAnswered ++ [.getSnapshot, .takeUser 0, .respondSnapshot 1]

/-- The snapshot shows the bypass of the pump that was committed before it, and not the alarm the
pump was hydrated with, and it shows the hydrated bypass of the beam. -/
theorem operators_see_beam : ∃ hydratedStatuses final events statuses bypassed,
    Hydrates beamJson [pumpReading "major"] [bypassRecord " beam#EPICS"] hydratedStatuses ∧
    (machine narrow).Run Machine.Every (start hydratedStatuses) bypassSeen events final ∧
    .showed 1 (.ok statuses) ∈ events ∧ writtenOf pump (tasks events) = [bypassed] ∧
      bypassed.state.value = .bypassed ∧ bypassed ∈ statuses ∧ servedBypass ∈ statuses := by
  have hydrates : Hydrates beamJson [pumpReading "major"] [bypassRecord " beam#EPICS"]
      ((FiniteMap.empty.insert pump (pumpReading "major")).insert beam servedBypass) := by
    apply Hydrates.of_merge
    rw [reduceSnapshot_beam]
    rfl
  obtain ⟨final, events, run, check⟩ : ∃ final events, (machine narrow).Run Machine.Every
      (start ((FiniteMap.empty.insert pump (pumpReading "major")).insert beam servedBypass))
      bypassSeen events final ∧
      ((final.snapshots.get? 1).any fun statuses =>
        (writtenOf pump (tasks events)).getLast?.any fun bypassed =>
          decide (.showed 1 (.ok statuses) ∈ events ∧
            .snapshot 1 statuses ∉ (tasks events).dropLast ∧
            writtenOf pump (tasks events) = [bypassed] ∧
            writtenOf pump (tasks events).dropLast = [bypassed] ∧
            writtenOf beam (tasks events).dropLast = [] ∧
            bypassed.state.value = .bypassed)) = true :=
    @Machine.run_of_check _ _ _ _ _ (fun _ _ => true) (fun _ _ _ _ => trivial) _ _ _ (by decide)
  obtain ⟨statuses, _, check⟩ := (Option.any_eq_true _ _).mp check
  obtain ⟨bypassed, _, check⟩ := (Option.any_eq_true _ _).mp check
  obtain ⟨showed, once, committed, earlier, beamKept, state⟩ := of_decide_eq_true check
  obtain ⟨seen, unseen, keys, split, -, listed, shown⟩ := operators_see hydrates run showed
  obtain rfl : unseen = [] := by
    by_contra more
    rw [split, List.dropLast_append_of_ne_nil (List.cons_ne_nil _ _),
      List.dropLast_cons_of_ne_nil more] at once
    exact once (List.mem_append_right _ List.mem_cons_self)
  rw [split, List.dropLast_concat] at earlier beamKept
  have shows : ∀ key status,
      shownAs beamJson [pumpReading "major"] [bypassRecord " beam#EPICS"] seen key = some status →
      status.state.value ≠ .ok ∧ status.state.value ≠ .unbypassed → status ∈ statuses := by
    intro key status current visible
    have member : some status ∈ statuses.map some := by
      rw [← shown, ← current]
      exact List.mem_map_of_mem ((listed key).mpr ⟨status, current, visible⟩)
    simpa using member
  refine ⟨_, final, events, statuses, bypassed, hydrates, run, showed, committed, state,
    shows pump _ ?_ ?_, shows beam _ ?_ (by decide)⟩
  · rw [shownAs, earlier]
    rfl
  · simp [state]
  · rw [shownAs, beamKept, hydration, reduceSnapshot_beam]
    rfl

end Service

end

end AcornAlarms
