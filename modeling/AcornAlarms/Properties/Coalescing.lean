import AcornAlarms.Adapters.Redis
import AcornAlarms.Engine.Coordinator

/-!
# What coalescing changes for a key

An update is compared with the last status that was recorded, not with the last one that
was received. Leaving updates out therefore changes the end of a key only where the last
update itself is suppressed: by a latched or unbypassed status of its severity, or because
it reports nothing but an unknown state.
-/

namespace AcornAlarms

open Library

section

variable [Platform]

namespace AlarmStateCoordinator

/-- Handle automated updates one after the other. -/
def handleAll (self : AlarmStateCoordinator) (port : JobPort) (updates : List Status) :
    AlarmStateCoordinator :=
  updates.foldl (fun self status => (self.handleAutomatedUpdate port status).coordinator) self

/-- The state and severity of the latest status of a key. -/
def latestReport (self : AlarmStateCoordinator) (key : Key) : Option (State × Severity) :=
  (self.getLatestStatus key).map fun status => (status.state.value, status.severity.value)

/-- The latest status of a key after an update of it. -/
theorem handleAutomatedUpdate_latest (self : AlarmStateCoordinator) (port : JobPort)
    (status : Status) :
    (self.handleAutomatedUpdate port status).coordinator.getLatestStatus (Key.from status) =
      if shouldPublish (self.getLatestStatus (Key.from status)) status then some status
      else self.getLatestStatus (Key.from status) := by
  unfold handleAutomatedUpdate
  simp only
  split
  · unfold speculate sendNextFor
    simp only [getNextId, Handled.after, Handled.done, FiniteMap.get?_insert_self]
    split
    · split <;> simp [getLatestStatus]
    · simp [getLatestStatus]
  · rfl

end AlarmStateCoordinator

/-- The latest status after updates, by the policy. -/
def latestAfter (prev : Option Status) (updates : List Status) : Option Status :=
  updates.foldl (fun prev status => if shouldPublish prev status then some status else prev) prev

theorem AlarmStateCoordinator.handleAll_latest (port : JobPort) {key : Key} {updates : List Status}
    (named : ∀ status ∈ updates, Key.from status = key) (self : AlarmStateCoordinator) :
    (self.handleAll port updates).getLatestStatus key =
      latestAfter (self.getLatestStatus key) updates := by
  induction updates generalizing self with
  | nil => rfl
  | cons status rest ih =>
      have here : Key.from status = key := named status List.mem_cons_self
      have later := ih (fun other member => named other (List.mem_cons_of_mem _ member))
        (self.handleAutomatedUpdate port status).coordinator
      subst here
      rw [handleAutomatedUpdate_latest] at later
      exact later

variable {prev : Option Status} {updates : List Status} {last : Status}

omit [Platform] in
/-- The latest status is one of the updates or the one before them. -/
theorem latestAfter_mem (prev : Option Status) (updates : List Status) :
    latestAfter prev updates = prev ∨
      ∃ status ∈ updates, latestAfter prev updates = some status := by
  induction updates generalizing prev with
  | nil => exact .inl rfl
  | cons status rest ih =>
      rcases ih (if shouldPublish prev status then some status else prev) with
        same | ⟨other, member, same⟩
      · by_cases accepted : shouldPublish prev status = true
        · rw [if_pos accepted] at same
          exact .inr ⟨status, List.mem_cons_self, by
            rw [latestAfter, List.foldl_cons, if_pos accepted]
            exact same⟩
        · rw [if_neg accepted] at same
          refine .inl ?_
          rw [latestAfter, List.foldl_cons, if_neg accepted]
          exact same
      · exact .inr ⟨other, List.mem_cons_of_mem _ member, same⟩

/-- Under a bypass of an EPICS key updates from Redis change nothing. -/
theorem latestAfter_bypassed {held : Status} (bypassed : held.state.value = .bypassed)
    (epics : ∀ status ∈ updates, status.source.value = .epics)
    (redis : ∀ status ∈ updates, FromRedis status) :
    latestAfter (some held) updates = some held := by
  induction updates with
  | nil => rfl
  | cons status rest ih =>
      have suppressed := shouldPublish_bypassed bypassed (epics status List.mem_cons_self)
        (redis status List.mem_cons_self).state_ne.2.1
      rw [latestAfter, List.foldl_cons, suppressed]
      exact ih (fun other member => epics other (List.mem_cons_of_mem _ member))
        fun other member => redis other (List.mem_cons_of_mem _ member)

/-- The last update reports a state, and the status before all updates is no latched or
unbypassed one of its severity. -/
def Decisive (prev : Option Status) (last : Status) : Prop :=
  last.state.value ≠ .unknown ∧ ∀ held, prev = some held →
    held.state.value = .latched ∨ held.state.value = .unbypassed →
    held.severity.value ≠ last.severity.value

/-- Without a bypass a decisive last update is where the key ends. -/
theorem latestAfter_decisive (redis : ∀ status ∈ updates ++ [last], FromRedis status)
    (decisive : Decisive prev last)
    (unbypassed : ∀ held, prev = some held → held.state.value = .bypassed →
      last.source.value ≠ .epics) :
    (latestAfter prev (updates ++ [last])).map
        (fun status => (status.state.value, status.severity.value)) =
      some (last.state.value, last.severity.value) := by
  have lastRedis : FromRedis last := redis last (by simp)
  rw [latestAfter, List.foldl_append, List.foldl_cons, List.foldl_nil]
  change (if shouldPublish (latestAfter prev updates) last then some last
    else latestAfter prev updates).map _ = _
  cases accepted : shouldPublish (latestAfter prev updates) last with
  | true => rfl
  | false =>
      obtain ⟨held, latest, why⟩ := suppressed_cases accepted
      -- A bypass, a latched or an unbypassed status was there before the updates.
      have earlier : held.state.value = .bypassed ∨ held.state.value = .latched ∨
          held.state.value = .unbypassed → prev = some held := by
        intro state
        rcases latestAfter_mem prev updates with same | ⟨status, member, same⟩
        · rw [← same, latest]
        · rw [latest] at same
          obtain rfl := Option.some.inj same
          have never := (redis held (List.mem_append_left _ member)).state_ne
          simp [never] at state
      have settled : held.state.value = last.state.value ∧
          held.severity.value = last.severity.value := by
        rcases why with ⟨bypassed, epics, _⟩ | ⟨transition, severity⟩
        · exact absurd epics (unbypassed held (earlier (.inl bypassed)) bypassed)
        · have reported : last.state.value = .ok ∨ last.state.value = .alarmed := by
            cases lastRedis.reading with
            | ok state _ => exact .inl state
            | alarmed state _ => exact .inr state
            | unknown state _ => exact absurd state decisive.1
          rcases transition_suppressed transition reported with same | kept
          · exact ⟨same, severity⟩
          · exact absurd severity (decisive.2 held (earlier (.inr kept)) kept)
      simp [latest, settled]

/-- Without a bypass the key ends with the severity of the last update: a suppressed one has the
severity of the status it leaves. -/
theorem latestAfter_severity (redis : ∀ status ∈ updates, FromRedis status)
    (unbypassed : ∀ held, prev = some held → held.state.value = .bypassed →
      last.source.value ≠ .epics) :
    (latestAfter prev (updates ++ [last])).map (fun status => status.severity.value) =
      some last.severity.value := by
  rw [latestAfter, List.foldl_append, List.foldl_cons, List.foldl_nil]
  change (if shouldPublish (latestAfter prev updates) last then some last
    else latestAfter prev updates).map _ = _
  cases accepted : shouldPublish (latestAfter prev updates) last with
  | true => rfl
  | false =>
      obtain ⟨held, latest, ⟨bypassed, epics, _⟩ | ⟨_, severity⟩⟩ := suppressed_cases accepted
      · obtain same | ⟨status, member, same⟩ := latestAfter_mem prev updates
        · exact absurd epics (unbypassed held (same.symm.trans latest) bypassed)
        · obtain rfl := Option.some.inj (same.symm.trans latest)
          exact absurd bypassed (redis status member).state_ne.1
      · simp [latest, severity]

section

variable {self : AlarmStateCoordinator} {port : JobPort} {key : Key}

/-- Updates of a key from Redis are of its source. -/
theorem source_of_named (named : ∀ status ∈ updates, Key.from status = key) :
    ∀ status ∈ updates, status.source.value = key.source := by
  intro status member
  rw [← named status member]
  rfl

/-- A key that is no bypassed EPICS key holds no update back. -/
theorem unbypassed_of_not (named : ∀ status ∈ updates ++ [last], Key.from status = key)
    (free : ¬ (key.source = .epics ∧ isBypassed prev = true)) :
    ∀ held, prev = some held → held.state.value = .bypassed → last.source.value ≠ .epics := by
  intro held latest bypassed epics
  rw [source_of_named named last (by simp)] at epics
  exact free ⟨epics, by simp [isBypassed, latest, bypassed]⟩

namespace AlarmStateCoordinator

/-- A bypassed EPICS key stays as it is. -/
theorem handleAll_bypassed (named : ∀ status ∈ updates, Key.from status = key)
    (redis : ∀ status ∈ updates, FromRedis status)
    (bypass : key.source = .epics ∧ isBypassed (self.getLatestStatus key) = true) :
    (self.handleAll port updates).latestReport key = self.latestReport key := by
  obtain ⟨held, latest, state⟩ := Option.any_eq_true .. |>.mp bypass.2
  rw [latestReport, handleAll_latest port named, latestReport, latest,
    latestAfter_bypassed (of_decide_eq_true state)
      (fun status member => (source_of_named named status member).trans bypass.1) redis]

/-- Any other key ends with the severity of its last update. -/
theorem handleAll_severity (named : ∀ status ∈ updates ++ [last], Key.from status = key)
    (redis : ∀ status ∈ updates ++ [last], FromRedis status)
    (free : ¬ (key.source = .epics ∧ isBypassed (self.getLatestStatus key) = true)) :
    ((self.handleAll port (updates ++ [last])).latestReport key).map Prod.snd =
      some last.severity.value := by
  rw [latestReport, handleAll_latest port named, Option.map_map]
  exact latestAfter_severity (fun status member => redis status (List.mem_append_left _ member))
    (unbypassed_of_not named free)

/-- If that one is decisive, the key ends with its state as well. -/
theorem handleAll_decisive (named : ∀ status ∈ updates ++ [last], Key.from status = key)
    (redis : ∀ status ∈ updates ++ [last], FromRedis status)
    (free : ¬ (key.source = .epics ∧ isBypassed (self.getLatestStatus key) = true))
    (decisive : Decisive (self.getLatestStatus key) last) :
    (self.handleAll port (updates ++ [last])).latestReport key =
      some (last.state.value, last.severity.value) := by
  rw [latestReport, handleAll_latest port named]
  exact latestAfter_decisive redis decisive (unbypassed_of_not named free)

end AlarmStateCoordinator

end

section

variable (self : AlarmStateCoordinator) (port : JobPort) (key : Key) (front kept : List Status)

omit [Platform] in
/-- What holds of all updates holds of those that are left. -/
theorem kept_of_front {holds : Status → Prop} {front kept : List Status}
    (all : ∀ status ∈ front ++ [last], holds status) (retained : kept.Sublist front) :
    ∀ status ∈ kept ++ [last], holds status :=
  fun status member => all status ((retained.append_right [last]).subset member)

/-- Leaving out updates before the last one leaves the key with the same severity. -/
theorem coalescing_keeps_severity (named : ∀ status ∈ front ++ [last], Key.from status = key)
    (redis : ∀ status ∈ front ++ [last], FromRedis status) (retained : kept.Sublist front) :
    ((self.handleAll port (front ++ [last])).latestReport key).map Prod.snd =
      ((self.handleAll port (kept ++ [last])).latestReport key).map Prod.snd := by
  by_cases bypass : key.source = .epics ∧ isBypassed (self.getLatestStatus key) = true
  · rw [AlarmStateCoordinator.handleAll_bypassed named redis bypass,
      AlarmStateCoordinator.handleAll_bypassed (kept_of_front named retained)
        (kept_of_front redis retained) bypass]
  · rw [AlarmStateCoordinator.handleAll_severity named redis bypass,
      AlarmStateCoordinator.handleAll_severity (kept_of_front named retained)
        (kept_of_front redis retained) bypass]

/-- Before a decisive last update, or for a bypassed EPICS key, it leaves the state the same. -/
theorem coalescing_keeps_state (named : ∀ status ∈ front ++ [last], Key.from status = key)
    (redis : ∀ status ∈ front ++ [last], FromRedis status) (retained : kept.Sublist front)
    (decisive : Decisive (self.getLatestStatus key) last ∨
      (key.source = .epics ∧ isBypassed (self.getLatestStatus key) = true)) :
    ((self.handleAll port (front ++ [last])).latestReport key).map Prod.fst =
      ((self.handleAll port (kept ++ [last])).latestReport key).map Prod.fst := by
  by_cases bypass : key.source = .epics ∧ isBypassed (self.getLatestStatus key) = true
  · rw [AlarmStateCoordinator.handleAll_bypassed named redis bypass,
      AlarmStateCoordinator.handleAll_bypassed (kept_of_front named retained)
        (kept_of_front redis retained) bypass]
  · have decisive := decisive.resolve_right bypass
    rw [AlarmStateCoordinator.handleAll_decisive named redis bypass decisive,
      AlarmStateCoordinator.handleAll_decisive (kept_of_front named retained)
        (kept_of_front redis retained) bypass decisive]

/-- Leaving out updates before the last one leaves the key with the same severity, and with the
same state where the last one is decisive or the key is a bypassed EPICS key. -/
theorem coalescing_keeps_report (last : Status)
    (named : ∀ status ∈ front ++ [last], Key.from status = key)
    (redis : ∀ status ∈ front ++ [last], FromRedis status) (retained : kept.Sublist front) :
    ((self.handleAll port (front ++ [last])).latestReport key).map Prod.snd =
        ((self.handleAll port (kept ++ [last])).latestReport key).map Prod.snd ∧
      (Decisive (self.getLatestStatus key) last ∨
          (key.source = .epics ∧ isBypassed (self.getLatestStatus key) = true) →
        ((self.handleAll port (front ++ [last])).latestReport key).map Prod.fst =
          ((self.handleAll port (kept ++ [last])).latestReport key).map Prod.fst) :=
  ⟨coalescing_keeps_severity self port key front kept named redis retained,
    coalescing_keeps_state self port key front kept named redis retained⟩

end

end

section

attribute [local instance] asciiPlatform

/-- An alarm that comes and goes before it comes again may be left out. -/
theorem coalescing_keeps_report_alarm :
    (((AlarmStateCoordinator.new .empty).handleAll ⟨true⟩
        ([pumpReading "minor", pumpReading "no_alarm"] ++
          [pumpReading "major"])).latestReport pump).map Prod.snd =
      (((AlarmStateCoordinator.new .empty).handleAll ⟨true⟩
        ([pumpReading "no_alarm"] ++ [pumpReading "major"])).latestReport pump).map Prod.snd ∧
    (((AlarmStateCoordinator.new .empty).handleAll ⟨true⟩
        ([pumpReading "minor", pumpReading "no_alarm"] ++
          [pumpReading "major"])).latestReport pump).map Prod.fst =
      (((AlarmStateCoordinator.new .empty).handleAll ⟨true⟩
        ([pumpReading "no_alarm"] ++ [pumpReading "major"])).latestReport pump).map Prod.fst := by
  have redis : ∀ status ∈ [pumpReading "minor", pumpReading "no_alarm"] ++ [pumpReading "major"],
      FromRedis status := by
    intro status member
    simp only [List.cons_append, List.nil_append, List.mem_cons, List.not_mem_nil,
      or_false] at member
    obtain rfl | rfl | rfl := member
    · exact ⟨pumpEntry "minor", 0, rfl⟩
    · exact ⟨pumpEntry "no_alarm", 0, rfl⟩
    · exact ⟨pumpEntry "major", 0, rfl⟩
  have decisive : Decisive ((AlarmStateCoordinator.new .empty).getLatestStatus pump)
      (pumpReading "major") :=
    ⟨by decide, fun held found => by
      simp [AlarmStateCoordinator.new, AlarmStateCoordinator.getLatestStatus] at found⟩
  obtain ⟨severity, state⟩ := coalescing_keeps_report (.new .empty) ⟨true⟩ pump
    [pumpReading "minor", pumpReading "no_alarm"] [pumpReading "no_alarm"] (pumpReading "major")
    (by decide) redis (by decide)
  exact ⟨severity, state (.inl decisive)⟩

/-- After an update that all is well one of unknown state is suppressed; without it the key ends
in the unknown state. -/
theorem coalescing_changes_report :
    FromRedis (pumpReading "no_alarm") ∧ FromRedis (pumpReading "") ∧
      Key.from (pumpReading "no_alarm") = pump ∧ Key.from (pumpReading "") = pump ∧
      [pumpReading ""].Sublist [pumpReading "no_alarm", pumpReading ""] ∧
      ((AlarmStateCoordinator.new .empty).handleAll ⟨true⟩
        [pumpReading "no_alarm", pumpReading ""]).latestReport pump = some (.ok, .unknown) ∧
      ((AlarmStateCoordinator.new .empty).handleAll ⟨true⟩
        [pumpReading ""]).latestReport pump = some (.unknown, .unknown) :=
  ⟨⟨pumpEntry "no_alarm", 0, rfl⟩, ⟨pumpEntry "", 0, rfl⟩, by decide, by decide, by decide,
    by decide, by decide⟩

end

end AcornAlarms
