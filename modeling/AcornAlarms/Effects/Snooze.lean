import AcornAlarms.Library.FiniteMap
import AcornAlarms.Model.Snooze

/-!
# The snooze scheduler

A registry of one timer per key over a `DelayQueue`. Instants and durations are
counted in nanoseconds. Of `DelayQueue`, which is not part of this repository, it
is assumed that it keeps each inserted entry under a slot of its own until it is
removed or yielded, at or after its deadline; using a slot it does not hold panics.
-/

namespace AcornAlarms

open Library

/-- The readings of both clocks at one moment: `Utc::now()` since the epoch and `Instant::now()`. -/
structure Clock where
  utc : Int
  instant : Nat
deriving DecidableEq

def nanosPerSecond : Nat := 1000000000

/-- Maximum delay that the delay queue can safely handle: `Duration::from_hours(365 * 24)`. -/
def maxDelay : Nat := 365 * 24 * 3600 * nanosPerSecond

/-- The entries of a delay queue by slot, and how many were inserted. -/
structure DelayQueue (α : Type) where
  entries : FiniteMap Nat (α × Nat)
  inserted : Nat
deriving DecidableEq

namespace DelayQueue

variable {α : Type}

def new : DelayQueue α := ⟨.empty, 0⟩

/-- Move the deadline of a held slot. -/
def resetAt (queue : DelayQueue α) (slot : Nat) (deadline : Nat) : Except String (DelayQueue α) :=
  match queue.entries.get? slot with
  | some (value, _) => .ok { queue with entries := queue.entries.insert slot (value, deadline) }
  | none => .error "invalid key"

/-- Give up a held slot. -/
def remove (queue : DelayQueue α) (slot : Nat) : Except String (DelayQueue α) :=
  match queue.entries.get? slot with
  | some _ => .ok { queue with entries := queue.entries.erase slot }
  | none => .error "invalid key"

theorem entries_of_resetAt {queue moved : DelayQueue α} {slot deadline : Nat} {entry : α × Nat}
    (held : queue.entries.get? slot = some entry) (reset : queue.resetAt slot deadline = .ok moved) :
    moved.entries = queue.entries.insert slot (entry.1, deadline) := by
  simp only [resetAt, held, Except.ok.injEq] at reset
  rw [← reset]

theorem entries_of_remove {queue rest : DelayQueue α} {slot : Nat}
    (removed : queue.remove slot = .ok rest) : rest.entries = queue.entries.erase slot := by
  unfold remove at removed
  split at removed
  · cases removed
    rfl
  · cases removed

variable [Platform]

/-- The slot the next entry takes. A slot that was given up may be taken again. -/
def nextSlot (queue : DelayQueue α) : Nat :=
  Platform.freeSlot queue.inserted queue.entries.keys

def insertAt (queue : DelayQueue α) (value : α) (deadline : Nat) : Nat × DelayQueue α :=
  (queue.nextSlot, ⟨queue.entries.insert queue.nextSlot (value, deadline), queue.inserted + 1⟩)

/-- The next entry takes a slot that no entry holds. -/
@[simp] theorem get?_nextSlot (queue : DelayQueue α) :
    queue.entries.get? queue.nextSlot = none := by
  have unheld := Platform.freeSlot_unheld queue.inserted queue.entries.keys
  rw [FiniteMap.mem_keys_iff, Bool.not_eq_true, Option.isSome_eq_false_iff,
    Option.isNone_iff_eq_none] at unheld
  exact unheld

end DelayQueue

variable [Platform]

/-- Convert a wake time to the instant its timer fires at; `none` for a time that
is out of range or past. -/
def timestampSecsToInstant (clock : Clock) (wake : Timestamp) : Option Nat :=
  if Platform.representable wake.seconds then
    let duration := wake.seconds * nanosPerSecond - clock.utc
    -- `to_std` fails on a negative duration.
    if duration < 0 then none
    else some (clock.instant + min duration.toNat maxDelay)
  else none

structure SnoozeScheduler where
  registry : FiniteMap Key Nat
  delayQueue : DelayQueue Key
deriving DecidableEq

namespace SnoozeScheduler

def new : SnoozeScheduler := ⟨.empty, .new⟩

/-- Act on a command and return the answer. -/
def handleSnoozeInput (self : SnoozeScheduler) (clock : Clock) (input : SnoozeInput) :
    Except String (SnoozeScheduler × SnoozeOutcome) :=
  match Snooze.from input with
  | .set key wake =>
      match timestampSecsToInstant clock wake with
      | some instant =>
          match self.registry.get? key with
          | some queueKey => do
              let delayQueue ← self.delayQueue.resetAt queueKey instant
              return ({ self with delayQueue }, .accepted key)
          | none =>
              let (queueKey, delayQueue) := self.delayQueue.insertAt key instant
              .ok ({ registry := self.registry.insert key queueKey, delayQueue }, .accepted key)
      | none => .ok (self, .invalidWake key)
  | .cancel key =>
      match self.registry.get? key with
      | some queueKey => do
          let delayQueue ← self.delayQueue.remove queueKey
          return ({ registry := self.registry.erase key, delayQueue }, .accepted key)
      | none => .ok (self, .accepted key)

/-- The delay queue yields the entry of a slot once its deadline is reached, and the
key is reported as expired. -/
def expire (self : SnoozeScheduler) (clock : Clock) (slot : Nat) :
    Option (SnoozeScheduler × Key) :=
  match self.delayQueue.entries.get? slot with
  | some (key, deadline) =>
      if deadline ≤ clock.instant then
        match self.delayQueue.remove slot with
        | .ok delayQueue =>
            some ({ registry := self.registry.erase key, delayQueue }, key)
        | .error _ => none
      else none
  | none => none

/-- Registry and delay queue hold the same keys, one live entry each. -/
structure Coherent (scheduler : SnoozeScheduler) : Prop where
  held : ∀ {key slot}, scheduler.registry.get? key = some slot →
    ∃ deadline, scheduler.delayQueue.entries.get? slot = some (key, deadline)
  registered : ∀ {slot key deadline},
    scheduler.delayQueue.entries.get? slot = some (key, deadline) →
    scheduler.registry.get? key = some slot

theorem new_coherent : SnoozeScheduler.new.Coherent where
  held := by simp [new]
  registered := by simp [new, DelayQueue.new]

/-- Whether the scheduler accepts a command at a moment: a cancel always, a set
when its wake time converts. -/
def accepts (clock : Clock) (input : SnoozeInput) : Bool :=
  input.wake.all fun wake => (timestampSecsToInstant clock wake).isSome

/-- The answer to a command. -/
def answer (clock : Clock) (input : SnoozeInput) : SnoozeOutcome :=
  if accepts clock input then .accepted input.key else .invalidWake input.key

@[simp] theorem answer_eq_accepted (clock : Clock) (input : SnoozeInput) :
    decide (answer clock input = .accepted input.key) = accepts clock input := by
  cases accepted : accepts clock input <;> simp [answer, accepted]

@[simp] theorem answer_ne_expired (clock : Clock) (input : SnoozeInput) (key : Key) :
    answer clock input ≠ .expired key := by
  unfold answer
  split <;> simp

variable {self : SnoozeScheduler}

/-- Replacing the timer of a registered key. -/
theorem Coherent.reset (coherent : self.Coherent) {key : Key} {slot : Nat} (instant : Nat)
    (found : self.registry.get? key = some slot) :
    ∃ queue, self.delayQueue.resetAt slot instant = .ok queue ∧
      Coherent { self with delayQueue := queue } := by
  obtain ⟨deadline, entry⟩ := coherent.held found
  simp only [DelayQueue.resetAt, entry]
  refine ⟨_, rfl, ⟨?_, ?_⟩⟩
  · intro other otherSlot otherFound
    simp only [FiniteMap.get?_insert]
    split
    · next same =>
        subst same
        obtain ⟨otherDeadline, otherEntry⟩ := coherent.held otherFound
        obtain ⟨rfl, _⟩ := Prod.mk.inj (Option.some.inj (otherEntry.symm.trans entry))
        exact ⟨_, rfl⟩
    · exact coherent.held otherFound
  · intro otherSlot other otherDeadline otherEntry
    simp only [FiniteMap.get?_insert] at otherEntry
    split at otherEntry
    · next same =>
        obtain ⟨rfl, _⟩ := Prod.mk.inj (Option.some.inj otherEntry)
        rw [same]
        exact found
    · exact coherent.registered otherEntry

/-- Inserting a timer for a key that has none. -/
theorem Coherent.insert (coherent : self.Coherent) {key : Key} (instant : Nat)
    (absent : self.registry.get? key = none) :
    Coherent
      { registry := self.registry.insert key (self.delayQueue.insertAt key instant).1
        delayQueue := (self.delayQueue.insertAt key instant).2 } := by
  refine ⟨?_, ?_⟩
  · intro other slot found
    simp only [DelayQueue.insertAt, FiniteMap.get?_insert] at found ⊢
    split at found
    · next same =>
        obtain rfl := Option.some.inj found
        exact ⟨instant, by simp [same]⟩
    · obtain ⟨deadline, entry⟩ := coherent.held found
      refine ⟨deadline, ?_⟩
      rw [if_neg]
      · exact entry
      · rintro rfl
        simp at entry
  · intro slot other deadline entry
    simp only [DelayQueue.insertAt, FiniteMap.get?_insert] at entry ⊢
    split at entry
    · next same =>
        obtain ⟨rfl, _⟩ := Prod.mk.inj (Option.some.inj entry)
        simp [same]
    · rw [if_neg]
      · exact coherent.registered entry
      · rintro rfl
        simp [coherent.registered entry] at absent

/-- Giving up the timer of a registered key. -/
theorem Coherent.remove (coherent : self.Coherent) {key : Key} {slot : Nat}
    (found : self.registry.get? key = some slot) :
    ∃ queue, self.delayQueue.remove slot = .ok queue ∧
      Coherent { registry := self.registry.erase key, delayQueue := queue } := by
  obtain ⟨deadline, entry⟩ := coherent.held found
  simp only [DelayQueue.remove, entry]
  refine ⟨_, rfl, ⟨?_, ?_⟩⟩
  · intro other otherSlot otherFound
    simp only [FiniteMap.get?_erase] at otherFound ⊢
    split at otherFound
    · simp at otherFound
    · next different =>
        obtain ⟨otherDeadline, otherEntry⟩ := coherent.held otherFound
        refine ⟨otherDeadline, ?_⟩
        rw [if_neg]
        · exact otherEntry
        · rintro rfl
          exact different (Prod.mk.inj (Option.some.inj (otherEntry.symm.trans entry))).1
  · intro otherSlot other otherDeadline otherEntry
    simp only [FiniteMap.get?_erase] at otherEntry ⊢
    split at otherEntry
    · simp at otherEntry
    · next different =>
        rw [if_neg]
        · exact coherent.registered otherEntry
        · rintro rfl
          have same := coherent.registered otherEntry
          exact different (Option.some.inj (same.symm.trans found))

/-- A coherent scheduler never panics on a command and answers it by `answer`; a
rejected command changes nothing. -/
theorem handleSnoozeInput_eq (coherent : self.Coherent) (clock : Clock) (input : SnoozeInput) :
    ∃ next, self.handleSnoozeInput clock input = .ok (next, answer clock input) ∧
      next.Coherent ∧ (accepts clock input = false → next = self) := by
  obtain ⟨key, wake⟩ := input
  unfold handleSnoozeInput Snooze.from answer accepts
  cases wake with
  | none =>
      cases found : self.registry.get? key with
      | none => exact ⟨self, by simp [found], coherent, by simp⟩
      | some slot =>
          obtain ⟨queue, removed, kept⟩ := coherent.remove found
          exact ⟨_, by simp [found, removed, bind, Except.bind, pure, Except.pure], kept, by simp⟩
  | some wake =>
      cases converted : timestampSecsToInstant clock wake with
      | none => exact ⟨self, by simp [converted], coherent, by simp⟩
      | some instant =>
          cases found : self.registry.get? key with
          | none =>
              exact ⟨_, by simp [converted, found], coherent.insert instant found,
                by simp [converted]⟩
          | some slot =>
              obtain ⟨queue, reset, kept⟩ := coherent.reset instant found
              exact ⟨_, by simp [converted, found, reset, bind, Except.bind, pure, Except.pure],
                kept, by simp [converted]⟩

/-- An accepted set leaves its key with a timer and an accepted cancel leaves it without;
nothing else changes which keys have one. -/
theorem handleSnoozeInput_registry {clock : Clock} {input : SnoozeInput} {next : SnoozeScheduler}
    {outcome : SnoozeOutcome} (handled : self.handleSnoozeInput clock input = .ok (next, outcome))
    (key : Key) :
    (next.registry.get? key).isSome =
      if input.key = key ∧ accepts clock input = true then input.wake.isSome
      else (self.registry.get? key).isSome := by
  obtain ⟨named, wake⟩ := input
  unfold handleSnoozeInput Snooze.from at handled
  unfold accepts
  cases wake with
  | none =>
      cases found : self.registry.get? named with
      | none =>
          simp only [found, Except.ok.injEq, Prod.mk.injEq] at handled
          obtain ⟨rfl, _⟩ := handled
          by_cases same : named = key
          · subst same
            simp [found]
          · simp [same]
      | some slot =>
          cases removed : self.delayQueue.remove slot with
          | error message => simp [found, removed, bind, Except.bind] at handled
          | ok queue =>
              simp only [found, removed, bind, Except.bind, pure, Except.pure, Except.ok.injEq,
                Prod.mk.injEq] at handled
              obtain ⟨rfl, _⟩ := handled
              by_cases same : named = key
              · simp [same]
              · simp [same, FiniteMap.get?_erase_of_ne _ (Ne.symm same)]
  | some wake =>
      cases converted : timestampSecsToInstant clock wake with
      | none =>
          simp only [converted, Except.ok.injEq, Prod.mk.injEq] at handled
          obtain ⟨rfl, _⟩ := handled
          simp [converted]
      | some instant =>
          cases found : self.registry.get? named with
          | none =>
              simp only [converted, found, Except.ok.injEq, Prod.mk.injEq] at handled
              obtain ⟨rfl, _⟩ := handled
              by_cases same : named = key
              · simp [same, converted]
              · simp [same, FiniteMap.get?_insert_of_ne _ _ (Ne.symm same)]
          | some slot =>
              cases reset : self.delayQueue.resetAt slot instant with
              | error message => simp [converted, found, reset, bind, Except.bind] at handled
              | ok queue =>
                  simp only [converted, found, reset, bind, Except.bind, pure, Except.pure,
                    Except.ok.injEq, Prod.mk.injEq] at handled
                  obtain ⟨rfl, _⟩ := handled
                  by_cases same : named = key
                  · subst same
                    simp [found, converted]
                  · simp [same]

/-- The entry of a timer after a command: an accepted command sets its own to the instant its
wake time converts to, and every other keeps its deadline. -/
theorem handleSnoozeInput_entry (coherent : self.Coherent) {clock : Clock} {input : SnoozeInput}
    {next : SnoozeScheduler} {outcome : SnoozeOutcome}
    (handled : self.handleSnoozeInput clock input = .ok (next, outcome)) {key : Key} {slot : Nat}
    (registered : next.registry.get? key = some slot) :
    (input.key = key ∧ ∃ wake deadline, input.wake = some wake ∧
        timestampSecsToInstant clock wake = some deadline ∧
        next.delayQueue.entries.get? slot = some (key, deadline)) ∨
      (¬ (input.key = key ∧ accepts clock input = true) ∧
        self.registry.get? key = some slot ∧
        next.delayQueue.entries.get? slot = self.delayQueue.entries.get? slot) := by
  obtain ⟨named, wake⟩ := input
  unfold handleSnoozeInput Snooze.from at handled
  unfold accepts
  cases wake with
  | none =>
      cases found : self.registry.get? named with
      | none =>
          simp only [found, Except.ok.injEq, Prod.mk.injEq] at handled
          obtain ⟨rfl, _⟩ := handled
          refine .inr ⟨?_, registered, rfl⟩
          rintro ⟨rfl, _⟩
          simp [found] at registered
      | some held =>
          obtain ⟨deadline, entry⟩ := coherent.held found
          simp only [found, DelayQueue.remove, entry, bind, Except.bind, pure, Except.pure,
            Except.ok.injEq, Prod.mk.injEq] at handled
          obtain ⟨rfl, _⟩ := handled
          have different : named ≠ key := by
            rintro rfl
            simp at registered
          simp only [FiniteMap.get?_erase_of_ne _ (Ne.symm different)] at registered
          refine .inr ⟨by simp [different], registered, FiniteMap.get?_erase_of_ne _ ?_⟩
          rintro rfl
          obtain ⟨other, twice⟩ := coherent.held registered
          exact different (Prod.mk.inj (Option.some.inj (entry.symm.trans twice))).1
  | some wake =>
      cases converted : timestampSecsToInstant clock wake with
      | none =>
          simp only [converted, Except.ok.injEq, Prod.mk.injEq] at handled
          obtain ⟨rfl, _⟩ := handled
          exact .inr ⟨by simp [converted], registered, rfl⟩
      | some instant =>
          cases found : self.registry.get? named with
          | none =>
              simp only [converted, found, Except.ok.injEq, Prod.mk.injEq] at handled
              obtain ⟨rfl, _⟩ := handled
              by_cases same : named = key
              · subst same
                simp only [FiniteMap.get?_insert_self, Option.some.injEq] at registered
                subst registered
                exact .inl ⟨rfl, wake, instant, rfl, converted, by simp [DelayQueue.insertAt]⟩
              · simp only [FiniteMap.get?_insert_of_ne _ _ (Ne.symm same)] at registered
                refine .inr ⟨by simp [same], registered, FiniteMap.get?_insert_of_ne _ _ ?_⟩
                rintro rfl
                obtain ⟨deadline, entry⟩ := coherent.held registered
                simp at entry
          | some held =>
              obtain ⟨old, entry⟩ := coherent.held found
              obtain ⟨queue, reset, _⟩ := coherent.reset instant found
              have entries := DelayQueue.entries_of_resetAt entry reset
              simp only [converted, found, reset, bind, Except.bind, pure, Except.pure,
                Except.ok.injEq, Prod.mk.injEq] at handled
              obtain ⟨rfl, _⟩ := handled
              by_cases same : named = key
              · subst same
                obtain rfl := Option.some.inj (registered.symm.trans found)
                exact .inl ⟨rfl, wake, instant, rfl, converted, by simp [entries]⟩
              · refine .inr ⟨by simp [same], registered, ?_⟩
                rw [entries, FiniteMap.get?_insert_of_ne]
                rintro rfl
                obtain ⟨deadline, twice⟩ := coherent.held registered
                exact same (Prod.mk.inj (Option.some.inj (entry.symm.trans twice))).1

/-- An expiry takes an elapsed entry out of the delay queue and its key out of the registry. -/
theorem expire_cases {clock : Clock} {slot : Nat} {next : SnoozeScheduler} {key : Key}
    (expired : self.expire clock slot = some (next, key)) :
    ∃ deadline queue, self.delayQueue.entries.get? slot = some (key, deadline) ∧
      deadline ≤ clock.instant ∧ self.delayQueue.remove slot = .ok queue ∧
      next = { registry := self.registry.erase key, delayQueue := queue } := by
  unfold expire at expired
  split at expired
  · next held deadline entry =>
      obtain ⟨elapsed, expired⟩ := Option.ite_none_right_eq_some.mp expired
      split at expired
      · next queue removed =>
          cases expired
          exact ⟨deadline, queue, entry, elapsed, removed, rfl⟩
      · cases expired
  · cases expired

/-- An elapsed entry can be yielded. -/
theorem expire_of_elapsed {clock : Clock} {slot deadline : Nat} {key : Key}
    (found : self.delayQueue.entries.get? slot = some (key, deadline))
    (elapsed : deadline ≤ clock.instant) :
    ∃ next, self.expire clock slot = some (next, key) := by
  simp [expire, found, elapsed, DelayQueue.remove]

/-- An expiry removes the timer of the key it reports. -/
theorem expire_eq (coherent : self.Coherent) {clock : Clock} {slot : Nat}
    {next : SnoozeScheduler} {key : Key} (expired : self.expire clock slot = some (next, key)) :
    self.registry.get? key = some slot ∧ next.registry = self.registry.erase key ∧
      next.Coherent := by
  obtain ⟨deadline, queue, entry, _, removed, rfl⟩ := expire_cases expired
  have found := coherent.registered entry
  obtain ⟨rest, taken, kept⟩ := coherent.remove found
  obtain rfl := Except.ok.inj (removed.symm.trans taken)
  exact ⟨found, rfl, kept⟩

/-- The timers left after an expiry keep their deadlines. -/
theorem expire_entry (coherent : self.Coherent) {clock : Clock} {slot other : Nat}
    {next : SnoozeScheduler} {key named : Key} (expired : self.expire clock slot = some (next, key))
    (registered : next.registry.get? named = some other) :
    self.registry.get? named = some other ∧
      next.delayQueue.entries.get? other = self.delayQueue.entries.get? other := by
  obtain ⟨deadline, queue, entry, _, removed, rfl⟩ := expire_cases expired
  have different : named ≠ key := by
    rintro rfl
    simp at registered
  rw [FiniteMap.get?_erase_of_ne _ different] at registered
  refine ⟨registered, ?_⟩
  rw [DelayQueue.entries_of_remove removed]
  refine FiniteMap.get?_erase_of_ne _ ?_
  rintro rfl
  obtain ⟨_, twice⟩ := coherent.held registered
  exact different (Prod.mk.inj (Option.some.inj (twice.symm.trans entry))).1

end SnoozeScheduler

end AcornAlarms
