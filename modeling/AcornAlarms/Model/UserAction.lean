import AcornAlarms.Model.Key

/-!
# User actions and update errors
-/

namespace AcornAlarms

/-- A user action that changes alarm state. -/
inductive UserAction where
  | acknowledge
  | activate
  | bypass (wake : Option Timestamp)
deriving DecidableEq

/-- The alarm state the action represents. -/
def UserAction.asState : UserAction → State
  | .acknowledge => .acknowledged
  | .activate => .unbypassed
  | .bypass _ => .bypassed

/-- The wake timestamp of a bypass action, if any. -/
def UserAction.getWake : UserAction → Option Timestamp
  | .bypass wake => wake
  | _ => none

variable [Platform]

/-- An attempted transition from one alarm state to another. -/
structure StateTransition where
  key : Key
  current : State
  requested : State
deriving DecidableEq

/-- Errors a user update is answered with. -/
inductive UpdateError where
  /-- A subsystem failure prevented the update from being persisted. -/
  | internal (key : Key)
  /-- The requested state transition is not allowed. -/
  | stateNotAllowed (transition : StateTransition)
deriving DecidableEq

end AcornAlarms
