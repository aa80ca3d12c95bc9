import AcornAlarms.Effects.SnoozeLoop
import AcornAlarms.Library.Buckets
import AcornAlarms.Library.History
import AcornAlarms.Runtime.Channels
import Mathlib.Algebra.BigOperators.Group.List.Basic
import Mathlib.Data.List.Induction
import Mathlib.Data.UInt

/-!
# Metrics

The counters, gauges and histograms behind the handle the tasks share, with one method for
everything that is counted. A 64-bit `usize` is taken, and additions wrap as in a release build.
-/

namespace AcornAlarms

open Library

/-- `u64::MAX`. -/
def u64Max : Nat := 18446744073709551615

/-- `Duration::as_millis` of some nanoseconds, cut to a `u64`. -/
def wholeMillis (duration : Nat) : Nat := min (duration / 1000000) u64Max

def confirmationLatencyBucketsMs : List Nat := [10, 50, 100, 250, 500, 1000, 2000]
def publishLatencyBucketsMs : List Nat := [5, 10, 25, 50, 100, 250, 500, 1000]
def overloadDurationBucketsMs : List Nat := [10, 50, 100, 250, 500, 1000, 5000]

structure Histogram where
  bucketsMs : List Nat
  counts : List UInt64
  overflow : UInt64
  samples : UInt64
  /-- At most `u64::MAX`. -/
  totalMs : Nat
  /-- Every bucket has a count. -/
  sized : counts.length = bucketsMs.length
deriving DecidableEq

namespace Histogram

def new (bucketsMs : List Nat) : Histogram where
  bucketsMs
  counts := List.replicate bucketsMs.length 0
  overflow := 0
  samples := 0
  totalMs := 0
  sized := List.length_replicate

def observe (self : Histogram) (duration : Nat) : Histogram :=
  let millis := wholeMillis duration
  let index := bucketOf self.bucketsMs millis
  { bucketsMs := self.bucketsMs
    counts := countAt self.counts index
    overflow := if index.isSome then self.overflow else self.overflow + 1
    samples := self.samples + 1
    totalMs := min (self.totalMs + millis) u64Max
    sized := (length_countAt self.counts index).trans self.sized }

/-- What a histogram shows of the durations it has observed: how many there are, their sum as far
as it fits, and for every bound how many do not exceed it. The numbers are those of a `u64`. -/
structure Shows (histogram : Histogram) (durations : List Nat) : Prop where
  samples : histogram.samples = .ofNat durations.length
  total : histogram.totalMs = min (durations.map wholeMillis).sum u64Max
  whole : histogram.counts.sum + histogram.overflow = .ofNat durations.length
  overflow : histogram.overflow =
    .ofNat (durations.countP fun duration => histogram.bucketsMs.all (· < wholeMillis duration))
  below : ∀ {index bound}, histogram.bucketsMs[index]? = some bound →
    (histogram.counts.take (index + 1)).sum =
      .ofNat (durations.countP fun duration => decide (wholeMillis duration ≤ bound))

variable {self : Histogram} {durations : List Nat}

@[simp] theorem observe_bucketsMs (duration : Nat) :
    (self.observe duration).bucketsMs = self.bucketsMs := rfl

theorem new_shows (bucketsMs : List Nat) : (new bucketsMs).Shows [] where
  samples := rfl
  total := rfl
  whole := by simp [new]
  overflow := rfl
  below := by simp [new]

/-- One more duration is shown with the others. -/
theorem Shows.observe (shows : self.Shows durations)
    (sorted : self.bucketsMs.Pairwise (· ≤ ·)) (duration : Nat) :
    (self.observe duration).Shows (durations ++ [duration]) := by
  have all : ∀ counts : List UInt64, counts.sum = (counts.take counts.length).sum := by simp
  have sum := shows.total
  constructor
  · simp [Histogram.observe, shows.samples]
  · simp only [Histogram.observe, List.map_append, List.sum_append, List.map_singleton,
      List.sum_singleton]
    omega
  · rw [List.length_append, List.length_singleton, UInt64.ofNat_add, ← shows.whole]
    simp only [Histogram.observe]
    cases found : bucketOf self.bucketsMs (wholeMillis duration) with
    | none => exact (add_assoc _ _ _).symm
    | some place =>
        have within : place < self.counts.length := self.sized ▸ bucketOf_lt found
        rw [all (countAt _ _), length_countAt, sum_take_countAt within, ← all, if_pos within]
        exact add_right_comm _ _ _
  · rw [List.countP_append, List.countP_singleton, UInt64.ofNat_add]
    refine Eq.trans ?_ (congrArg (· + _) shows.overflow)
    change (if (bucketOf self.bucketsMs (wholeMillis duration)).isSome then self.overflow
      else self.overflow + 1) = _
    cases found : bucketOf self.bucketsMs (wholeMillis duration) with
    | none =>
        have above : (self.observe duration).bucketsMs.all (· < wholeMillis duration) = true := by
          simpa using bucketOf_eq_none_iff.mp found
        rw [if_pos above]
        rfl
    | some place =>
        have covered : ¬(self.observe duration).bucketsMs.all (· < wholeMillis duration) = true := by
          intro above
          rw [bucketOf_eq_none_iff.mpr (by simpa using above)] at found
          cases found
        rw [if_neg covered]
        exact (add_zero _).symm
  · intro index bound (bounded : self.bucketsMs[index]? = some bound)
    obtain ⟨within, rfl⟩ := List.getElem?_eq_some_iff.mp bounded
    rw [List.countP_append, List.countP_singleton, UInt64.ofNat_add, ← shows.below bounded]
    simp only [Histogram.observe]
    cases found : bucketOf self.bucketsMs (wholeMillis duration) with
    | none =>
        have above := bucketOf_eq_none_iff.mp found _ (List.getElem_mem within)
        rw [if_neg (by simpa using above)]
        exact (add_zero _).symm
    | some place =>
        have reaches := bucketOf_le_iff sorted found within
        rw [sum_take_countAt (self.sized ▸ bucketOf_lt found)]
        simp only [Nat.lt_add_one_iff, reaches, decide_eq_true_eq]
        split <;> rfl

/-- Whatever is observed, in whatever order, is shown. -/
theorem shows_foldl {bucketsMs : List Nat} (sorted : bucketsMs.Pairwise (· ≤ ·))
    (durations : List Nat) : (durations.foldl Histogram.observe (new bucketsMs)).Shows durations ∧
      (durations.foldl Histogram.observe (new bucketsMs)).bucketsMs = bucketsMs := by
  induction durations using List.reverseRec with
  | nil => exact ⟨new_shows bucketsMs, rfl⟩
  | append_singleton durations duration ih =>
      rw [List.foldl_concat]
      exact ⟨ih.1.observe (by rwa [ih.2]) duration, ih.2⟩

end Histogram

inductive PublishOutcomeKind where
  | success
  | failure
deriving DecidableEq

structure QueueCapacityMetrics where
  automated : Nat
  user : Nat
  job : Nat
  publish : Nat
  snooze : Nat
deriving DecidableEq

def QueueCapacityMetrics.from (value : QueueCapacityConfig) : QueueCapacityMetrics where
  automated := value.automated
  user := value.user
  job := value.job
  publish := value.publish
  snooze := value.snooze

structure Metrics where
  overloadEntries : UInt64
  overloadExits : UInt64
  automatedQueueFull : UInt64
  userQueueFullRejections : UInt64
  publishAttempts : UInt64
  publishRetries : UInt64
  publishFailures : UInt64
  jobsDispatched : UInt64
  jobsCommitted : UInt64
  jobsFailed : UInt64
  snoozeWakes : UInt64
  /-- The counters of the snooze scheduler and the gauge of its timers. -/
  snooze : SnoozeMetrics
  queueConfiguredCapacity : QueueCapacityMetrics
  retainedAutomatedKeys : Nat
  inFlightPublishAttempts : UInt64
  confirmationLatencyMs : Histogram
  publishLatencyMs : Histogram
  overloadDurationMs : Histogram
deriving DecidableEq

/-- A call of one of the recording methods. -/
inductive MetricsCall where
  | automatedQueueFull
  | userQueueFullRejection
  | overloadEntry (retainedKeys : Nat)
  | retainedAutomatedKeys (retainedKeys : Nat)
  | overloadExit (duration : Nat)
  | publishAttemptStarted
  | publishRetry
  | publishCompletion (outcome : PublishOutcomeKind) (latency : Nat)
  | confirmationLatency (latency : Nat)
  | jobDispatched
  | jobCommitted
  | jobFailed
  | snoozeWake
  | snooze (record : SnoozeRecord)
deriving DecidableEq

namespace Metrics

def new (queueConfig : QueueCapacityConfig) : Metrics where
  overloadEntries := 0
  overloadExits := 0
  automatedQueueFull := 0
  userQueueFullRejections := 0
  publishAttempts := 0
  publishRetries := 0
  publishFailures := 0
  jobsDispatched := 0
  jobsCommitted := 0
  jobsFailed := 0
  snoozeWakes := 0
  snooze := .new
  queueConfiguredCapacity := .from queueConfig
  retainedAutomatedKeys := 0
  inFlightPublishAttempts := 0
  confirmationLatencyMs := .new confirmationLatencyBucketsMs
  publishLatencyMs := .new publishLatencyBucketsMs
  overloadDurationMs := .new overloadDurationBucketsMs

def recordAutomatedQueueFull (self : Metrics) : Metrics :=
  { self with automatedQueueFull := self.automatedQueueFull + 1 }

def recordUserQueueFullRejection (self : Metrics) : Metrics :=
  { self with userQueueFullRejections := self.userQueueFullRejections + 1 }

def recordOverloadEntry (self : Metrics) (retainedKeys : Nat) : Metrics :=
  { self with
    overloadEntries := self.overloadEntries + 1
    retainedAutomatedKeys := retainedKeys }

def recordRetainedAutomatedKeys (self : Metrics) (retainedKeys : Nat) : Metrics :=
  { self with retainedAutomatedKeys := retainedKeys }

def recordOverloadExit (self : Metrics) (duration : Nat) : Metrics :=
  { self with
    overloadExits := self.overloadExits + 1
    retainedAutomatedKeys := 0
    overloadDurationMs := self.overloadDurationMs.observe duration }

def recordPublishAttemptStarted (self : Metrics) : Metrics :=
  { self with
    publishAttempts := self.publishAttempts + 1
    inFlightPublishAttempts := self.inFlightPublishAttempts + 1 }

def recordPublishRetry (self : Metrics) : Metrics :=
  { self with publishRetries := self.publishRetries + 1 }

def recordPublishCompletion (self : Metrics) (outcome : PublishOutcomeKind) (latency : Nat) :
    Metrics :=
  let self :=
    { self with
      inFlightPublishAttempts := self.inFlightPublishAttempts - 1
      publishLatencyMs := self.publishLatencyMs.observe latency }
  match outcome with
  | .success => self
  | .failure => { self with publishFailures := self.publishFailures + 1 }

def recordConfirmationLatency (self : Metrics) (latency : Nat) : Metrics :=
  { self with confirmationLatencyMs := self.confirmationLatencyMs.observe latency }

def recordJobDispatched (self : Metrics) : Metrics :=
  { self with jobsDispatched := self.jobsDispatched + 1 }

def recordJobCommitted (self : Metrics) : Metrics :=
  { self with jobsCommitted := self.jobsCommitted + 1 }

def recordJobFailed (self : Metrics) : Metrics :=
  { self with jobsFailed := self.jobsFailed + 1 }

def recordSnoozeWake (self : Metrics) : Metrics :=
  { self with snoozeWakes := self.snoozeWakes + 1 }

/-- What a call makes of the metrics. -/
def call (self : Metrics) : MetricsCall → Metrics
  | .automatedQueueFull => self.recordAutomatedQueueFull
  | .userQueueFullRejection => self.recordUserQueueFullRejection
  | .overloadEntry retainedKeys => self.recordOverloadEntry retainedKeys
  | .retainedAutomatedKeys retainedKeys => self.recordRetainedAutomatedKeys retainedKeys
  | .overloadExit duration => self.recordOverloadExit duration
  | .publishAttemptStarted => self.recordPublishAttemptStarted
  | .publishRetry => self.recordPublishRetry
  | .publishCompletion outcome latency => self.recordPublishCompletion outcome latency
  | .confirmationLatency latency => self.recordConfirmationLatency latency
  | .jobDispatched => self.recordJobDispatched
  | .jobCommitted => self.recordJobCommitted
  | .jobFailed => self.recordJobFailed
  | .snoozeWake => self.recordSnoozeWake
  | .snooze record => { self with snooze := self.snooze.record record }

end Metrics

/-- The counters, in the order of their fields. -/
inductive Counter where
  | overloadEntries
  | overloadExits
  | automatedQueueFull
  | userQueueFullRejections
  | publishAttempts
  | publishRetries
  | publishFailures
  | jobsDispatched
  | jobsCommitted
  | jobsFailed
  | snoozeWakes
  | snoozeSets
  | snoozeCancels
  | snoozeInvalidWakes
  | snoozeExpirations
deriving DecidableEq

def Metrics.counter (self : Metrics) : Counter → UInt64
  | .overloadEntries => self.overloadEntries
  | .overloadExits => self.overloadExits
  | .automatedQueueFull => self.automatedQueueFull
  | .userQueueFullRejections => self.userQueueFullRejections
  | .publishAttempts => self.publishAttempts
  | .publishRetries => self.publishRetries
  | .publishFailures => self.publishFailures
  | .jobsDispatched => self.jobsDispatched
  | .jobsCommitted => self.jobsCommitted
  | .jobsFailed => self.jobsFailed
  | .snoozeWakes => self.snoozeWakes
  | .snoozeSets => self.snooze.snoozeSets
  | .snoozeCancels => self.snooze.snoozeCancels
  | .snoozeInvalidWakes => self.snooze.snoozeInvalidWakes
  | .snoozeExpirations => self.snooze.snoozeExpirations

namespace MetricsCall

/-- The counter a call adds one to. -/
def counter? : MetricsCall → Option Counter
  | .automatedQueueFull => some .automatedQueueFull
  | .userQueueFullRejection => some .userQueueFullRejections
  | .overloadEntry _ => some .overloadEntries
  | .retainedAutomatedKeys _ => none
  | .overloadExit _ => some .overloadExits
  | .publishAttemptStarted => some .publishAttempts
  | .publishRetry => some .publishRetries
  | .publishCompletion .success _ => none
  | .publishCompletion .failure _ => some .publishFailures
  | .confirmationLatency _ => none
  | .jobDispatched => some .jobsDispatched
  | .jobCommitted => some .jobsCommitted
  | .jobFailed => some .jobsFailed
  | .snoozeWake => some .snoozeWakes
  | .snooze .set => some .snoozeSets
  | .snooze .cancel => some .snoozeCancels
  | .snooze .invalidWake => some .snoozeInvalidWakes
  | .snooze .expiration => some .snoozeExpirations

/-- The duration a confirmation took. -/
def confirmed? : MetricsCall → Option Nat
  | .confirmationLatency latency => some latency
  | _ => none

/-- The duration a publish attempt took. -/
def completed? : MetricsCall → Option Nat
  | .publishCompletion _ latency => some latency
  | _ => none

/-- The duration of an overload. -/
def overloaded? : MetricsCall → Option Nat
  | .overloadExit duration => some duration
  | _ => none

/-- The number of retained keys a call reports. -/
def retained? : MetricsCall → Option Nat
  | .overloadEntry retainedKeys | .retainedAutomatedKeys retainedKeys => some retainedKeys
  | .overloadExit _ => some 0
  | _ => none

/-- How often some calls add to a counter. -/
def count (calls : List MetricsCall) (counter : Counter) : Nat :=
  calls.countP fun call => call.counter? = some counter

@[simp] theorem count_nil (counter : Counter) : count [] counter = 0 := rfl

@[simp] theorem count_append (first second : List MetricsCall) (counter : Counter) :
    count (first ++ second) counter = count first counter + count second counter :=
  List.countP_append

@[simp] theorem count_cons (call : MetricsCall) (rest : List MetricsCall) (counter : Counter) :
    count (call :: rest) counter =
      count rest counter + if call.counter? = some counter then 1 else 0 := by
  simp [count, List.countP_cons]

end MetricsCall

namespace Metrics

variable {self : Metrics}

/-- A call adds one to its counter and nothing to the others. -/
theorem call_counter (call : MetricsCall) (counter : Counter) :
    (self.call call).counter counter =
      if call.counter? = some counter then self.counter counter + 1
      else self.counter counter := by
  cases call with
  | publishCompletion outcome => cases outcome <;> cases counter <;> rfl
  | snooze record => cases record <;> cases counter <;> rfl
  | _ => cases counter <;> rfl

/-- What the metrics show of the calls: every counter counts its own, every histogram shows its
durations, the gauge of retained keys is the number last reported, and the other gauges are what
began and did not end. -/
structure Shows (queueConfig : QueueCapacityConfig) (calls : List MetricsCall)
    (metrics : Metrics) : Prop where
  counters : ∀ counter, metrics.counter counter = .ofNat (MetricsCall.count calls counter)
  confirmations : metrics.confirmationLatencyMs.Shows (calls.filterMap MetricsCall.confirmed?)
  completions : metrics.publishLatencyMs.Shows (calls.filterMap MetricsCall.completed?)
  overloads : metrics.overloadDurationMs.Shows (calls.filterMap MetricsCall.overloaded?)
  retained : metrics.retainedAutomatedKeys = (latest MetricsCall.retained? calls).getD 0
  attempts : metrics.inFlightPublishAttempts =
    metrics.publishAttempts - metrics.publishLatencyMs.samples
  timers : metrics.snooze.inFlightSnoozeTimers =
    metrics.snooze.snoozeSets - metrics.snooze.snoozeCancels - metrics.snooze.snoozeExpirations
  capacities : metrics.queueConfiguredCapacity = .from queueConfig

/-- Calls change what a place keeps as one call does. -/
theorem foldl_counter (calls : List MetricsCall) (counter : Counter) :
    (calls.foldl call self).counter counter =
      self.counter counter + .ofNat (MetricsCall.count calls counter) := by
  induction calls generalizing self with
  | nil => simp
  | cons call rest ih =>
      rw [List.foldl_cons, ih, call_counter, MetricsCall.count_cons]
      split
      · rw [UInt64.ofNat_add]
        grind
      · simp

/-- A gauge that went with its counters goes with them after a call. -/
theorem call_attempts (call : MetricsCall)
    (before : self.inFlightPublishAttempts =
      self.publishAttempts - self.publishLatencyMs.samples) :
    (self.call call).inFlightPublishAttempts =
      (self.call call).publishAttempts - (self.call call).publishLatencyMs.samples := by
  cases call with
  | publishAttemptStarted =>
      simp only [Metrics.call, recordPublishAttemptStarted, before]
      grind
  | publishCompletion outcome latency =>
      have less : self.inFlightPublishAttempts - 1 =
          self.publishAttempts - (self.publishLatencyMs.samples + 1) := by
        rw [before]
        grind
      cases outcome <;> exact less
  | _ => exact before

theorem call_timers (call : MetricsCall)
    (before : self.snooze.inFlightSnoozeTimers =
      self.snooze.snoozeSets - self.snooze.snoozeCancels - self.snooze.snoozeExpirations) :
    (self.call call).snooze.inFlightSnoozeTimers =
      (self.call call).snooze.snoozeSets - (self.call call).snooze.snoozeCancels -
        (self.call call).snooze.snoozeExpirations := by
  cases call with
  | snooze record =>
      cases record <;>
        simp only [Metrics.call, SnoozeMetrics.record, SnoozeMetrics.recordSnoozeSet,
          SnoozeMetrics.recordSnoozeCancel, SnoozeMetrics.recordSnoozeInvalidWake,
          SnoozeMetrics.recordSnoozeExpiration, before] <;>
        grind
  | publishCompletion outcome => cases outcome <;> exact before
  | _ => exact before

/-- Calls keep what each of them keeps. -/
theorem foldl_keeps (holds : Metrics → Prop)
    (kept : ∀ {metrics : Metrics} (call : MetricsCall), holds metrics → holds (metrics.call call))
    (calls : List MetricsCall) (holdsNow : holds self) : holds (calls.foldl call self) := by
  induction calls generalizing self with
  | nil => exact holdsNow
  | cons call rest ih => exact ih (kept call holdsNow)

/-- A histogram that takes the durations of some calls shows them. -/
theorem foldl_shows {kept : Metrics → Histogram} {pick : MetricsCall → Option Nat}
    (bucketsMs : List Nat) (sorted : bucketsMs.Pairwise (· ≤ ·)) (fresh : kept self = .new bucketsMs)
    (one : ∀ (metrics : Metrics) (call : MetricsCall),
      kept (metrics.call call) = (pick call).elim (kept metrics) (kept metrics).observe)
    (calls : List MetricsCall) : (kept (calls.foldl call self)).Shows (calls.filterMap pick) := by
  rw [foldl_kept pick call kept Histogram.observe one, fresh]
  exact (Histogram.shows_foldl sorted _).1

/-- In whatever order the tasks call, the metrics show the calls. -/
theorem shows_calls (queueConfig : QueueCapacityConfig) (calls : List MetricsCall) :
    (calls.foldl call (new queueConfig)).Shows queueConfig calls where
  counters := by
    intro counter
    rw [foldl_counter]
    cases counter <;> exact UInt64.zero_add _
  confirmations := by
    refine foldl_shows confirmationLatencyBucketsMs (by decide) rfl ?_ calls
    intro metrics call
    cases call with
    | publishCompletion outcome => cases outcome <;> rfl
    | _ => rfl
  completions := by
    refine foldl_shows publishLatencyBucketsMs (by decide) rfl ?_ calls
    intro metrics call
    cases call with
    | publishCompletion outcome => cases outcome <;> rfl
    | _ => rfl
  overloads := by
    refine foldl_shows overloadDurationBucketsMs (by decide) rfl ?_ calls
    intro metrics call
    cases call with
    | publishCompletion outcome => cases outcome <;> rfl
    | _ => rfl
  retained := by
    have last : ∀ (numbers : List Nat) (first : Nat),
        numbers.foldl (fun _ number => number) first = numbers.getLast?.getD first := by
      intro numbers first
      induction numbers using List.reverseRec with
      | nil => rfl
      | append_singleton rest number _ => simp
    rw [foldl_kept MetricsCall.retained? call retainedAutomatedKeys (fun _ number => number), last]
    · rfl
    · intro metrics call
      cases call with
      | publishCompletion outcome => cases outcome <;> rfl
      | _ => rfl
  attempts := foldl_keeps
    (fun metrics => metrics.inFlightPublishAttempts =
      metrics.publishAttempts - metrics.publishLatencyMs.samples) call_attempts calls
    (by simp [new, Histogram.new])
  timers := foldl_keeps
    (fun metrics => metrics.snooze.inFlightSnoozeTimers =
      metrics.snooze.snoozeSets - metrics.snooze.snoozeCancels - metrics.snooze.snoozeExpirations)
    call_timers calls (by simp [new, SnoozeMetrics.new])
  capacities := by
    refine foldl_keeps (fun metrics => metrics.queueConfiguredCapacity = .from queueConfig)
      (fun call before => ?_) calls rfl
    cases call with
    | publishCompletion outcome => cases outcome <;> exact before
    | _ => exact before

end Metrics

end AcornAlarms
