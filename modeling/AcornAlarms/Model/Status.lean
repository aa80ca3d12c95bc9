/-!
# Alarm status records

The protobuf messages the service moves around. An enumeration field is an open
number on the wire: `EnumField` keeps the declared variants apart from numbers no
variant has, and `EnumField.value` is the generated getter, which reads such a
number as the zero value.
-/

namespace AcornAlarms

/-- `common.alarm.status.State`. -/
inductive State where
  | unknown
  | ok
  | alarmed
  | latched
  | acknowledged
  | bypassed
  | unbypassed
deriving DecidableEq, Repr

/-- `common.alarm.status.Severity`. -/
inductive Severity where
  | unknown
  | low
  | high
deriving DecidableEq, Repr

/-- `common.alarm.status.Source`. -/
inductive Source where
  | unknown
  | analog
  | digital
  | epics
deriving DecidableEq, Repr

instance : Inhabited State := ⟨.unknown⟩
instance : Inhabited Severity := ⟨.unknown⟩
instance : Inhabited Source := ⟨.unknown⟩

/-- The `i32` behind an enumeration field. -/
inductive EnumField (α : Type) where
  | variant (value : α)
  | unrecognized (number : Int)
deriving DecidableEq, Repr

/-- The getter of an enumeration field. -/
def EnumField.value {α : Type} [Inhabited α] : EnumField α → α
  | .variant value => value
  | .unrecognized _ => default

@[simp] theorem EnumField.value_variant {α : Type} [Inhabited α] (value : α) :
    (EnumField.variant value).value = value := rfl

/-- `google.protobuf.Timestamp`. -/
structure Timestamp where
  seconds : Int
  nanos : Int
deriving DecidableEq, Repr

/-- `common.alarm.Status`. -/
structure Status where
  device : String
  severity : EnumField Severity
  state : EnumField State
  source : EnumField Source
  acknowledgeable : Bool
  time : Option Timestamp
  epicsType : String
  user : String
  wake : Option Timestamp
deriving DecidableEq, Repr

/-- `Status::default()`: every number zero, every text empty, no message set. -/
def Status.default : Status where
  device := ""
  severity := .variant .unknown
  state := .variant .unknown
  source := .variant .unknown
  acknowledgeable := false
  time := none
  epicsType := ""
  user := ""
  wake := none

end AcornAlarms
