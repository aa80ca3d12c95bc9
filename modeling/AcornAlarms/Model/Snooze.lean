import AcornAlarms.Model.Key

/-!
# The snooze scheduler protocol
-/

namespace AcornAlarms

variable [Platform]

/-- A command sent to the snooze scheduler. -/
structure SnoozeInput where
  key : Key
  wake : Option Timestamp
deriving DecidableEq

/-- The action the scheduler takes on a command. -/
inductive Snooze where
  | set (key : Key) (wake : Timestamp)
  | cancel (key : Key)

def Snooze.from (input : SnoozeInput) : Snooze :=
  match input.wake with
  | some wake => .set input.key wake
  | none => .cancel input.key

/-- The answer to a command, or the notice that a timer elapsed. -/
inductive SnoozeOutcome where
  | expired (key : Key)
  | invalidWake (key : Key)
  | accepted (key : Key)
deriving DecidableEq

end AcornAlarms
