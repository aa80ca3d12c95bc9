import AcornAlarms.Library.FiniteMap
import AcornAlarms.Model.Key
import Mathlib.Algebra.Group.Int.Defs

/-!
# The Redis stream reader

An entry of the stream is a map of texts. Its severity text decides both the severity and
the state of the status built from it, and an entry without a device is skipped.
-/

namespace AcornAlarms

open Library

/-- The value of a list of decimal digits, most significant first; `none` for no digits or
another character. -/
def parseDigits (digits : List Char) : Option Nat :=
  if digits.isEmpty || !digits.all Char.isDigit then none
  else some (digits.foldl (fun value digit => 10 * value + (digit.toNat - '0'.toNat)) 0)

/-- `i64::from_str`: an optional sign and decimal digits, within range. -/
def parseInt64 (text : String) : Option Int :=
  let value : Option Int :=
    match text.toList with
    | '-' :: digits => (parseDigits digits).map fun value => -value
    | '+' :: digits => (parseDigits digits).map Int.ofNat
    | digits => (parseDigits digits).map Int.ofNat
  value.filter fun value => -(2 ^ 63) ≤ value && value < 2 ^ 63

/-- The severity and state a severity text stands for. -/
def readSeverity (severityStr : String) : Severity × State :=
  match severityStr with
  | "NO_ALARM" => (.unknown, .ok)
  | "LOW" | "MINOR" => (.low, .alarmed)
  | "HIGH" | "MAJOR" => (.high, .alarmed)
  | _ => (.unknown, .unknown)

/-- The source a source text stands for. -/
def readSource (sourceStr : String) : Source :=
  match sourceStr with
  | "ANALOG" => .analog
  | "DIGITAL" => .digital
  | "EPICS" => .epics
  | _ => .unknown

theorem readSeverity_cases (text : String) :
    readSeverity text = (.unknown, .ok) ∨ readSeverity text = (.low, .alarmed) ∨
      readSeverity text = (.high, .alarmed) ∨ readSeverity text = (.unknown, .unknown) := by
  unfold readSeverity
  split <;> simp

section

variable [Platform]

/-- The status an entry stands for; `now` is the time taken when the entry has none. -/
def buildStatusFromRedis (redisEntries : FiniteMap String String) (now : Int) : Status :=
  let device := toUppercase ((redisEntries.get? "device").getD "")
  let severityStr := toUppercase ((redisEntries.get? "severity").getD "")
  let (severityEnum, stateEnum) := readSeverity severityStr
  let sourceEnum := readSource (toUppercase ((redisEntries.get? "source").getD ""))
  let timeSecs := ((redisEntries.get? "timestamp").bind fun text => parseInt64 (trim text)).getD now
  { device
    severity := .variant severityEnum
    state := .variant stateEnum
    source := .variant sourceEnum
    acknowledgeable := false
    time := some { seconds := timeSecs, nanos := 0 }
    epicsType := ""
    user := ""
    wake := none }

/-- The update `run_alarm_stream` forwards for an entry, unless its device is missing. -/
def runAlarmStream (payload : FiniteMap String String) (now : Int) : Option Status :=
  let status := buildStatusFromRedis payload now
  if status.device.isEmpty then none else some status

/-- An update the Redis reader forwards. -/
def FromRedis (status : Status) : Prop := ∃ payload now, runAlarmStream payload now = some status

/-- The reports the stream can make: all is well, an alarm with a severity, or neither. -/
inductive Reading (status : Status) : Prop where
  | ok (state : status.state.value = .ok) (severity : status.severity.value = .unknown)
  | alarmed (state : status.state.value = .alarmed) (severity : status.severity.value ≠ .unknown)
  | unknown (state : status.state.value = .unknown) (severity : status.severity.value = .unknown)

namespace FromRedis

variable {status : Status}

theorem eq_build (redis : FromRedis status) :
    ∃ payload now, status = buildStatusFromRedis payload now := by
  obtain ⟨payload, now, forwarded⟩ := redis
  unfold runAlarmStream at forwarded
  simp only at forwarded
  split at forwarded
  · cases forwarded
  · exact ⟨payload, now, (Option.some.inj forwarded).symm⟩

/-- An update from Redis has no wake time. -/
theorem wake (redis : FromRedis status) : status.wake = none := by
  obtain ⟨payload, now, rfl⟩ := redis.eq_build
  rfl

theorem reading (redis : FromRedis status) : Reading status := by
  obtain ⟨payload, now, rfl⟩ := redis.eq_build
  rcases readSeverity_cases (toUppercase ((payload.get? "severity").getD "")) with
    same | same | same | same
  · exact .ok (by simp [buildStatusFromRedis, same]) (by simp [buildStatusFromRedis, same])
  · exact .alarmed (by simp [buildStatusFromRedis, same]) (by simp [buildStatusFromRedis, same])
  · exact .alarmed (by simp [buildStatusFromRedis, same]) (by simp [buildStatusFromRedis, same])
  · exact .unknown (by simp [buildStatusFromRedis, same]) (by simp [buildStatusFromRedis, same])

/-- Redis reports neither a bypass nor its end. -/
theorem state_ne (redis : FromRedis status) :
    status.state.value ≠ .bypassed ∧ status.state.value ≠ .unbypassed ∧
      status.state.value ≠ .latched := by
  cases redis.reading with
  | ok state _ | alarmed state _ | unknown state _ => simp [state]

end FromRedis

end

section

attribute [local instance] asciiPlatform

/-- A stream entry of the pump. -/
def pumpEntry (severity : String) : FiniteMap String String :=
  ((FiniteMap.empty.insert "device" "pump").insert "source" "analog").insert "severity" severity

/-- The status of a stream entry of the pump. -/
def pumpReading (severity : String) : Status := buildStatusFromRedis (pumpEntry severity) 0

end

end AcornAlarms
