import AcornAlarms.Engine.Workflow
import AcornAlarms.Model.UserAction

/-!
# Observable events

The history of a run is the list of these events. No handler reads them back.
-/

namespace AcornAlarms

variable [Platform]

/-- The sending half of a one-shot channel, by its number. -/
abbrev Confirmation := Nat

inductive Event where
  /-- An automated update was recorded as the latest desired status. -/
  | recorded (id : Nat) (key : Key) (status : Status)
  /-- A user update was recorded, and its confirmation retained under the id. -/
  | admitted (id : Nat) (key : Key) (status : Status) (confirmation : Confirmation)
  /-- A user update was refused. -/
  | refused (confirmation : Confirmation) (error : UpdateError)
  /-- A job entered the job queue. -/
  | dispatched (job : Job)
  /-- The confirmation retained under an id was answered, for a job of this key. -/
  | resolved (id : Nat) (key : Key) (confirmation : Confirmation)
      (answer : Except UpdateError Unit)
  /-- A committed job was written to the confirmed state. -/
  | committed (job : Job)
  /-- A failed job was reconciled. -/
  | failed (job : Job)
  /-- A wake-up reached the coordinator. -/
  | woke (key : Key)
  /-- A snapshot was handed to its requester. -/
  | snapshot (sender : Nat) (statuses : List Status)
  /-- The scheduler answered a command. -/
  | answered (key : Key) (wake : Option Timestamp) (accepted : Bool)
  /-- A snooze timer elapsed. -/
  | expired (key : Key)
  /-- A publish attempt returned. -/
  | published (key : Key) (status : Status) (delivered : Bool)
  /-- "Overran workflow steps!" was logged. -/
  | overran (key : Key)
  /-- The coordinator loop exited on an unrecoverable error. -/
  | unrecoverable (cause : String)
  /-- A task panicked. -/
  | panicked (message : String)
deriving DecidableEq

end AcornAlarms
