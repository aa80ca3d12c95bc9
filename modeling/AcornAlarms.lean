import AcornAlarms.Properties.Occupancy
import AcornAlarms.Properties.Confirmations
import AcornAlarms.Properties.Publication
import AcornAlarms.Properties.Truthfulness
import AcornAlarms.Lanes.Rollback
import AcornAlarms.Properties.Rollback
import AcornAlarms.Lanes.Wakes
import AcornAlarms.Properties.Expiry
import AcornAlarms.Lanes.Potential
import AcornAlarms.Lanes.Progress
import AcornAlarms.Properties.Termination
import AcornAlarms.Lanes.Order
import AcornAlarms.Properties.Ids
import AcornAlarms.Adapters.Redis
import AcornAlarms.Properties.Coalescing
import AcornAlarms.Lanes.Reference
import AcornAlarms.Properties.Convergence
import AcornAlarms.Properties.Display
import AcornAlarms.Lanes.Timers
import AcornAlarms.Properties.Timers
import AcornAlarms.Properties.Restart
import AcornAlarms.Properties.Bypass
import AcornAlarms.Engine.Ingress
import AcornAlarms.Properties.Overload
import AcornAlarms.Adapters.Snapshot
import AcornAlarms.Properties.Recovery
import AcornAlarms.Lanes.Arrivals
import AcornAlarms.Lanes.Mirror
import AcornAlarms.Properties.Noninterference
import AcornAlarms.Lanes.Load
import AcornAlarms.Runtime.Channels
import AcornAlarms.Properties.Waiting
import AcornAlarms.Library.Replay
import AcornAlarms.Properties.Hydration
import AcornAlarms.Properties.Addressing
import AcornAlarms.Engine.CoordinatorLoop
import AcornAlarms.Lanes.Books
import AcornAlarms.Properties.Snapshots
import AcornAlarms.Properties.Shutdown
import AcornAlarms.Engine.ClosableIngress
import AcornAlarms.Properties.Closing
import AcornAlarms.Adapters.Grpc
import AcornAlarms.Properties.Requests
import AcornAlarms.Effects.SnoozeLoop
import AcornAlarms.Properties.Scheduler
import AcornAlarms.Effects.PublishLoop
import AcornAlarms.Properties.Delivery
import AcornAlarms.Engine.WorkflowLoop
import AcornAlarms.Properties.Replacement
import AcornAlarms.Properties.Naming
import AcornAlarms.Effects.WakeTime
import AcornAlarms.Properties.WakeTimes
import AcornAlarms.Effects.Workers
import AcornAlarms.Properties.Exits
import AcornAlarms.Library.Projection
import AcornAlarms.Library.Occurrence
import AcornAlarms.Adapters.Confirmations
import AcornAlarms.Runtime.Service
import AcornAlarms.Runtime.Select
import AcornAlarms.Lanes.Origins
import AcornAlarms.Runtime.Calls
import AcornAlarms.Properties.Answers
import AcornAlarms.Lanes.Dispatches
import AcornAlarms.Properties.Unanswered
import AcornAlarms.Properties.Sessions
import AcornAlarms.Lanes.Reports
import AcornAlarms.Properties.Reports
import AcornAlarms.Properties.Progress
import AcornAlarms.Properties.Log
import AcornAlarms.Library.Buckets
import AcornAlarms.Runtime.Metrics
import AcornAlarms.Runtime.Metered
import AcornAlarms.Properties.Flows
import AcornAlarms.Properties.Metrics
import AcornAlarms.Properties.Pressure
import AcornAlarms.Properties.Priority
import AcornAlarms.Library.Union
import AcornAlarms.Properties.Durability
