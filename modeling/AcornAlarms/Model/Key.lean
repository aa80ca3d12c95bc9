import AcornAlarms.Model.Status
import AcornAlarms.Model.Text

/-!
# Alarm keys

A key is built only by `Key.from` and by parsing, both of which normalize the
device name, so the normal form is part of the type.
-/

namespace AcornAlarms

section

variable [Platform]

/-- Identifies an alarm by its normalized device name and its source. -/
structure Key where
  device : String
  source : Source
  normal : normalize device = device
deriving DecidableEq

/-- The key of a status, normalizing the device name. -/
def Key.from (status : Status) : Key where
  device := normalize status.device
  source := status.source.value
  normal := normalize_normalize status.device

/-- A status that names the device and source of a key has that key. -/
theorem Key.from_eq {key : Key} {status : Status} (device : status.device = key.device)
    (source : status.source = .variant key.source) : Key.from status = key := by
  cases key with
  | mk keyDevice keySource normal =>
      simp only at device source
      simp [Key.from, device, source, normal]

/-- A status of a key with nothing set but its state and severity. -/
def Key.report (key : Key) (state : State) (severity : Severity) : Status :=
  { Status.default with
    device := key.device
    source := .variant key.source
    state := .variant state
    severity := .variant severity }

@[simp] theorem Key.from_report (key : Key) (state : State) (severity : Severity) :
    Key.from (key.report state severity) = key :=
  Key.from_eq rfl rfl

end

section

attribute [local instance] asciiPlatform

/-- An analog device, the key of the concrete runs. -/
def pump : Key := ⟨"PUMP", .analog, by decide⟩

/-- An EPICS device, whose automated updates a bypass suppresses. -/
def beam : Key := ⟨"BEAM", .epics, by decide⟩

end

end AcornAlarms
