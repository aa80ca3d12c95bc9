import AcornAlarms.Effects.Snooze
import AcornAlarms.Library.Mixed

/-!
# Wake times in machine arithmetic

The date-times, durations and instants of `timestamp_secs_to_instant` as seconds and
nanoseconds in the ranges of their types. A step that leaves the range of its type panics.
-/

namespace AcornAlarms

open Library

theorem nanosPerSecond_pos : 0 < nanosPerSecond := by decide

theorem nanosPerSecond_cast : (nanosPerSecond : Int) = 1000000000 := rfl

/-- The first and the last second of `chrono::DateTime<Utc>`, since the epoch. -/
def minUtcSecond : Int := -8334601228800
def maxUtcSecond : Int := 8210266876799

/-- `chrono::DateTime<Utc>`. -/
structure DateTime where
  sinceEpoch : Mixed nanosPerSecond
  earliest : minUtcSecond ≤ sinceEpoch.whole
  latest : sinceEpoch.whole ≤ maxUtcSecond
deriving DecidableEq

/-- `chrono::TimeDelta`, at most `i64::MAX` milliseconds either way. -/
structure TimeDelta where
  value : Mixed nanosPerSecond
  bounded : value.total.natAbs ≤ (2 ^ 63 - 1) * 1000000
deriving DecidableEq

/-- `std::time::Duration`. -/
structure Duration where
  value : Mixed nanosPerSecond
  nonneg : 0 ≤ value.whole
  bounded : value.whole < 2 ^ 64
deriving DecidableEq

/-- `tokio::time::Instant`, on a clock that starts with the machine. -/
structure Instant where
  sinceStart : Mixed nanosPerSecond
  nonneg : 0 ≤ sinceStart.whole
  bounded : sinceStart.whole < 2 ^ 63
deriving DecidableEq

namespace DateTime

/-- The seconds a date-time can be at. -/
def InRange (seconds : Int) : Prop := minUtcSecond ≤ seconds ∧ seconds ≤ maxUtcSecond

instance (seconds : Int) : Decidable (InRange seconds) :=
  inferInstanceAs (Decidable (_ ∧ _))

def fromTimestampSecs (seconds : Int) : Option DateTime :=
  if inRange : InRange seconds then
    some ⟨⟨seconds, 0, nanosPerSecond_pos⟩, inRange.1, inRange.2⟩
  else none

def signedDurationSince (later earlier : DateTime) : Except String TimeDelta :=
  let value := later.sinceEpoch.sub earlier.sinceEpoch
  if bounded : value.total.natAbs ≤ (2 ^ 63 - 1) * 1000000 then .ok ⟨value, bounded⟩
  else .error "always in range"

theorem total_bounds (time : DateTime) :
    minUtcSecond * nanosPerSecond ≤ time.sinceEpoch.total ∧
      time.sinceEpoch.total < (maxUtcSecond + 1) * nanosPerSecond := by
  have earliest := time.earliest
  have latest := time.latest
  have part := time.sinceEpoch.bounded
  unfold Mixed.total minUtcSecond maxUtcSecond nanosPerSecond at *
  omega

/-- Any two date-times have a difference. -/
theorem signedDurationSince_ok (later earlier : DateTime) :
    ∃ difference, later.signedDurationSince earlier = .ok difference ∧
      difference.value.total = later.sinceEpoch.total - earlier.sinceEpoch.total := by
  have bounded : (later.sinceEpoch.sub earlier.sinceEpoch).total.natAbs ≤
      (2 ^ 63 - 1) * 1000000 := by
    have range := later.total_bounds
    have range' := earlier.total_bounds
    rw [Mixed.total_sub]
    simp only [minUtcSecond, maxUtcSecond, nanosPerSecond_cast] at range range'
    omega
  exact ⟨⟨_, bounded⟩, by simp only [signedDurationSince, bounded, dite_true], Mixed.total_sub⟩

end DateTime

namespace TimeDelta

theorem whole_lt (difference : TimeDelta) : difference.value.whole < 2 ^ 64 := by
  have bounded := difference.bounded
  apply Mixed.whole_lt_of_total_lt
  rw [nanosPerSecond_cast]
  omega

/-- Fails on negative differences. -/
def toStd (difference : TimeDelta) : Option Duration :=
  if nonneg : 0 ≤ difference.value.whole then
    some ⟨difference.value, nonneg, difference.whole_lt⟩
  else none

theorem toStd_eq_none_iff {difference : TimeDelta} :
    difference.toStd = none ↔ difference.value.total < 0 := by
  rw [toStd, dite_eq_right_iff, ← not_le, ← Mixed.whole_nonneg_iff]
  simp

theorem value_of_toStd {difference : TimeDelta} {duration : Duration}
    (converted : difference.toStd = some duration) : duration.value = difference.value := by
  unfold toStd at converted
  split at converted
  · cases converted
    rfl
  · cases converted

end TimeDelta

namespace Duration

def min (first second : Duration) : Duration :=
  if first.value.le second.value then first else second

/-- `MAX_DELAY`. -/
def maxDelay : Duration := ⟨⟨365 * 24 * 3600, 0, nanosPerSecond_pos⟩, by decide, by decide⟩

theorem maxDelay_total : maxDelay.value.total = AcornAlarms.maxDelay := by decide

theorem value_min (first second : Duration) :
    (first.min second).value = first.value.min second.value := by
  unfold min Mixed.min
  split <;> rfl

/-- A capped duration is no longer than a year. -/
theorem whole_min_maxDelay (duration : Duration) :
    (duration.min maxDelay).value.whole ≤ 365 * 24 * 3600 := by
  have capped : (duration.min maxDelay).value.total ≤ maxDelay.value.total := by
    rw [value_min, Mixed.total_min]
    exact min_le_right _ _
  have below : (duration.min maxDelay).value.total < (365 * 24 * 3600 + 1) * nanosPerSecond :=
    capped.trans_lt (by decide)
  exact Int.lt_add_one_iff.mp (Mixed.whole_lt_of_total_lt below)

end Duration

namespace Instant

theorem add_nonneg (instant : Instant) (duration : Duration) :
    0 ≤ (instant.sinceStart.add duration.value).whole := by
  have start := Mixed.whole_nonneg_iff.mp instant.nonneg
  have length := Mixed.whole_nonneg_iff.mp duration.nonneg
  rw [Mixed.whole_nonneg_iff, Mixed.total_add]
  exact Int.add_nonneg start length

/-- `Instant + Duration`. -/
def add (instant : Instant) (duration : Duration) : Except String Instant :=
  let sinceStart := instant.sinceStart.add duration.value
  if bounded : sinceStart.whole < 2 ^ 63 then
    .ok ⟨sinceStart, instant.add_nonneg duration, bounded⟩
  else .error "overflow when adding duration to instant"

end Instant

/-- `Utc::now()` and `Instant::now()` at one moment, with a year left on the second clock.
`Utc::now()` panics before 1970 and never returns an earlier time; here it may be any date-time,
and what is proved of the conversion holds of the earlier ones as well. -/
structure Moment where
  now : DateTime
  instant : Instant
  headroom : instant.sinceStart.whole + 365 * 24 * 3600 + 1 < 2 ^ 63
deriving DecidableEq

namespace Moment

/-- A year ahead is within the range of instants. -/
theorem add_ok (moment : Moment) (duration : Duration) :
    ∃ instant, moment.instant.add (duration.min .maxDelay) = .ok instant ∧
      instant.sinceStart.total =
        moment.instant.sinceStart.total + Min.min duration.value.total AcornAlarms.maxDelay := by
  have bounded :
      (moment.instant.sinceStart.add (duration.min .maxDelay).value).whole < 2 ^ 63 := by
    have headroom := moment.headroom
    have year := duration.whole_min_maxDelay
    unfold Mixed.add
    split <;> dsimp only <;> omega
  refine ⟨⟨_, moment.instant.add_nonneg _, bounded⟩, ?_, ?_⟩
  · simp only [Instant.add, bounded, dite_true]
  · rw [Mixed.total_add, Duration.value_min, Mixed.total_min, Duration.maxDelay_total]

/-- `timestamp_secs_to_instant`, or the panic of one of its steps. -/
def timestampSecsToInstant (moment : Moment) (wake : Timestamp) : Except String (Option Instant) :=
  match DateTime.fromTimestampSecs wake.seconds with
  | some targetTime => do
      let duration ← targetTime.signedDurationSince moment.now
      match duration.toStd with
      | some duration => return some (← moment.instant.add (duration.min .maxDelay))
      -- `to_std` fails on a negative duration.
      | none => return none
  | none => .ok none

/-- How far ahead the whole second of a wake time is, in nanoseconds. -/
def ahead (moment : Moment) (wake : Timestamp) : Int :=
  wake.seconds * nanosPerSecond - moment.now.sinceEpoch.total

/-- What becomes of a wake time. -/
inductive Converted (moment : Moment) (wake : Timestamp) : Option Instant → Prop where
  | outOfRange (out : ¬ DateTime.InRange wake.seconds) : Converted moment wake none
  | past (inRange : DateTime.InRange wake.seconds) (passed : moment.ahead wake < 0) :
      Converted moment wake none
  | future {instant} (inRange : DateTime.InRange wake.seconds) (waits : 0 ≤ moment.ahead wake)
      (deadline : instant.sinceStart.total =
        moment.instant.sinceStart.total + Min.min (moment.ahead wake) AcornAlarms.maxDelay) :
      Converted moment wake (some instant)

/-- No step panics. -/
theorem timestampSecsToInstant_converted (moment : Moment) (wake : Timestamp) :
    ∃ result, moment.timestampSecsToInstant wake = .ok result ∧
      moment.Converted wake result := by
  unfold timestampSecsToInstant DateTime.fromTimestampSecs
  by_cases inRange : DateTime.InRange wake.seconds
  · obtain ⟨difference, subtracts, total⟩ := DateTime.signedDurationSince_ok
      ⟨⟨wake.seconds, 0, nanosPerSecond_pos⟩, inRange.1, inRange.2⟩ moment.now
    have length : difference.value.total = moment.ahead wake := by
      rw [total, ahead]
      simp [Mixed.total]
    simp only [inRange, dite_true, subtracts, bind, Except.bind]
    cases converted : difference.toStd with
    | none =>
        have passed := TimeDelta.toStd_eq_none_iff.mp converted
        rw [length] at passed
        exact ⟨none, rfl, .past inRange passed⟩
    | some duration =>
        have waits : 0 ≤ moment.ahead wake := by
          rw [← length, ← not_lt, ← TimeDelta.toStd_eq_none_iff, converted]
          simp
        obtain ⟨instant, adds, deadline⟩ := moment.add_ok duration
        rw [TimeDelta.value_of_toStd converted, length] at deadline
        simp only [adds]
        exact ⟨some instant, rfl, .future inRange waits deadline⟩
  · simp only [inRange, dite_false]
    exact ⟨none, rfl, .outOfRange inRange⟩

/-- The readings of both clocks in nanoseconds. -/
def clock (moment : Moment) : Clock :=
  ⟨moment.now.sinceEpoch.total, moment.instant.sinceStart.total.toNat⟩

/-- The conversion counts the nanoseconds the scheduler's conversion counts. -/
theorem timestampSecsToInstant_refines [Platform]
    (range : ∀ seconds, Platform.representable seconds = true ↔ DateTime.InRange seconds)
    (moment : Moment) (wake : Timestamp) :
    ∃ result, moment.timestampSecsToInstant wake = .ok result ∧
      result.map (·.sinceStart.total.toNat) =
        AcornAlarms.timestampSecsToInstant moment.clock wake := by
  obtain ⟨result, computes, converted⟩ := moment.timestampSecsToInstant_converted wake
  refine ⟨result, computes, ?_⟩
  unfold AcornAlarms.timestampSecsToInstant
  simp only [range, show wake.seconds * (nanosPerSecond : Int) - moment.clock.utc =
    moment.ahead wake from rfl]
  cases converted with
  | outOfRange out => simp [out]
  | past inRange passed => simp [inRange, passed]
  | future inRange waits deadline =>
      have start := Mixed.whole_nonneg_iff.mp moment.instant.nonneg
      simp only [inRange, if_true, not_lt.mpr waits, if_false, Option.map_some, deadline, clock]
      congr 1
      omega

end Moment

end AcornAlarms
