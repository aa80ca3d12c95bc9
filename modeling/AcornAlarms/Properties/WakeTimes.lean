import AcornAlarms.Effects.WakeTime

/-!
# When wake times are converted faithfully

The conversion takes the whole second of a wake time and drops its nanoseconds, and it accepts
a wake time at the current moment. No step of it panics.
-/

namespace AcornAlarms

open Library

/-- A timestamp in nanoseconds since the epoch. -/
def Timestamp.total (time : Timestamp) : Int := time.seconds * nanosPerSecond + time.nanos

namespace Moment

/-- The conversion rejects the wake times that are out of range or not in the future, and
accepts any other with a timer for it, a year from now at most. -/
structure Faithful (moment : Moment) (wake : Timestamp) : Prop where
  returns : ∃ result, moment.timestampSecsToInstant wake = .ok result
  rejects : moment.timestampSecsToInstant wake = .ok none ↔
    ¬ DateTime.InRange wake.seconds ∨ wake.total ≤ moment.now.sinceEpoch.total
  deadline : ∀ {instant}, moment.timestampSecsToInstant wake = .ok (some instant) →
    instant.sinceStart.total - moment.instant.sinceStart.total =
      Min.min (wake.total - moment.now.sinceEpoch.total) AcornAlarms.maxDelay
  /-- A timer within the year does not fire before its wake time. -/
  timely : ∀ {instant}, moment.timestampSecsToInstant wake = .ok (some instant) →
    wake.total - moment.now.sinceEpoch.total ≤ AcornAlarms.maxDelay →
    wake.total - moment.now.sinceEpoch.total ≤
      instant.sinceStart.total - moment.instant.sinceStart.total

/-- The whole second of a wake time says as much as the wake time: it is out of range, or both
are past, or both are in the future and either equal or a year ahead. -/
def Rounds (moment : Moment) (wake : Timestamp) : Prop :=
  ¬ DateTime.InRange wake.seconds ∨
    moment.ahead wake < 0 ∧ wake.total ≤ moment.now.sinceEpoch.total ∨
    0 < moment.ahead wake ∧ (wake.nanos = 0 ∨ AcornAlarms.maxDelay ≤ moment.ahead wake)

variable {moment : Moment} {wake : Timestamp}

theorem total_sub_now : wake.total - moment.now.sinceEpoch.total =
    moment.ahead wake + wake.nanos := by
  unfold Timestamp.total ahead
  ring

theorem total_le_now_iff : wake.total ≤ moment.now.sinceEpoch.total ↔
    moment.ahead wake + wake.nanos ≤ 0 := by
  rw [← total_sub_now]
  omega

/-- What is required of a conversion, of the result it has. -/
theorem faithful_iff {result : Option Instant}
    (computes : moment.timestampSecsToInstant wake = .ok result) :
    moment.Faithful wake ↔
      (result = none ↔ ¬ DateTime.InRange wake.seconds ∨ moment.ahead wake + wake.nanos ≤ 0) ∧
      ∀ instant, result = some instant →
        instant.sinceStart.total - moment.instant.sinceStart.total =
          Min.min (moment.ahead wake + wake.nanos) AcornAlarms.maxDelay := by
  constructor
  · intro faithful
    constructor
    · simpa [computes, total_le_now_iff] using faithful.rejects
    · intro instant accepted
      rw [← total_sub_now]
      exact faithful.deadline (computes.trans (congrArg Except.ok accepted))
  · rintro ⟨rejects, deadline⟩
    refine ⟨⟨result, computes⟩, by simpa [computes, total_le_now_iff] using rejects, ?_, ?_⟩
    · intro instant accepted
      rw [total_sub_now]
      exact deadline instant (Except.ok.inj (computes.symm.trans accepted))
    · intro instant accepted near
      rw [deadline instant (Except.ok.inj (computes.symm.trans accepted)), ← total_sub_now]
      exact (min_eq_left near).ge

/-- A wake time is converted faithfully exactly when its whole second says as much as it does. -/
theorem wakeTime_faithful_iff (moment : Moment) (wake : Timestamp) (proper : 0 ≤ wake.nanos) :
    moment.Faithful wake ↔ moment.Rounds wake := by
  obtain ⟨result, computes, converted⟩ := moment.timestampSecsToInstant_converted wake
  have year : 0 < AcornAlarms.maxDelay := by decide
  rw [faithful_iff computes, Rounds, total_le_now_iff]
  cases converted with
  | outOfRange out => simp [out]
  | past inRange passed =>
      -- The nanoseconds may still bring the wake time past the present.
      simp only [inRange, not_true_eq_false, false_or, true_iff, reduceCtorEq,
        IsEmpty.forall_iff, implies_true, and_true]
      omega
  | future inRange waits deadline =>
      -- The present itself is accepted; later on, the timer is early by the nanoseconds.
      simp only [inRange, not_true_eq_false, false_or, false_iff, reduceCtorEq, not_le,
        Option.some.injEq, forall_eq', deadline]
      omega

/-- A quarter past second 5. -/
def quarterPast : Moment where
  now := ⟨⟨5, 250000000, by decide⟩, by decide, by decide⟩
  instant := ⟨⟨0, 0, nanosPerSecond_pos⟩, by decide, by decide⟩
  headroom := by decide

/-- Second 5. -/
def onTheSecond : Moment := { quarterPast with
  now := ⟨⟨5, 0, nanosPerSecond_pos⟩, by decide, by decide⟩ }

/-- Three quarters of a second after the clock of instants started. -/
def threeQuarters : Instant := ⟨⟨0, 750000000, by decide⟩, by decide, by decide⟩

theorem wakeTime_faithful_ahead :
    quarterPast.Rounds ⟨10, 0⟩ ∧ quarterPast.Faithful ⟨10, 0⟩ := by
  have rounds : quarterPast.Rounds ⟨10, 0⟩ := .inr (.inr ⟨by decide, .inl rfl⟩)
  exact ⟨rounds, (wakeTime_faithful_iff quarterPast ⟨10, 0⟩ le_rfl).mpr rounds⟩

/-- A wake time at the present is accepted and its timer fires at once, one later within the
current second is rejected, and the timer of one half a second into the next fires half a
second early. -/
theorem wakeTime_unfaithful :
    onTheSecond.timestampSecsToInstant ⟨5, 0⟩ = .ok (some onTheSecond.instant) ∧
      ¬ onTheSecond.Faithful ⟨5, 0⟩ ∧
      quarterPast.timestampSecsToInstant ⟨5, 900000000⟩ = .ok none ∧
      ¬ quarterPast.Faithful ⟨5, 900000000⟩ ∧
      quarterPast.timestampSecsToInstant ⟨6, 500000000⟩ = .ok (some threeQuarters) ∧
      ¬ quarterPast.Faithful ⟨6, 500000000⟩ := by
  have accepts :
      onTheSecond.timestampSecsToInstant ⟨5, 0⟩ = .ok (some onTheSecond.instant) := by decide
  have rejects : quarterPast.timestampSecsToInstant ⟨5, 900000000⟩ = .ok none := by decide
  have hastens :
      quarterPast.timestampSecsToInstant ⟨6, 500000000⟩ = .ok (some threeQuarters) := by decide
  refine ⟨accepts, ?_, rejects, ?_, hastens, ?_⟩
  · intro faithful
    have rejected := faithful.rejects.mpr (.inr (by decide))
    rw [accepts] at rejected
    cases rejected
  · intro faithful
    exact absurd (faithful.rejects.mp rejects) (by decide)
  · intro faithful
    exact absurd (faithful.deadline hastens) (by decide)

end Moment

end AcornAlarms
