import PgWorkQueue.Client.Backoff
import PgWorkQueue.Client.Binding
import PgWorkQueue.Client.Builder
import PgWorkQueue.Client.Claim
import PgWorkQueue.Client.Flip
import PgWorkQueue.Client.Handler
import PgWorkQueue.Client.KeySlot
import PgWorkQueue.Client.KeyedClaim
import PgWorkQueue.Client.Knobs
import PgWorkQueue.Client.Limits
import PgWorkQueue.Client.Mark
import PgWorkQueue.Client.PollLoop
import PgWorkQueue.Client.PushValidation
import PgWorkQueue.Client.Pusher
import PgWorkQueue.Client.Reaper
import PgWorkQueue.Client.Routing
import PgWorkQueue.Client.TaskSet
import PgWorkQueue.Database.Schema
import PgWorkQueue.Database.Statements
import PgWorkQueue.Library.CappedScan
import PgWorkQueue.Library.Footprint
import PgWorkQueue.Library.Json
import PgWorkQueue.Library.KeyedRows
import PgWorkQueue.Library.Lease
import PgWorkQueue.Library.Loop
import PgWorkQueue.Library.Rounding
import PgWorkQueue.Library.RowLocking
import PgWorkQueue.Library.Runs
import PgWorkQueue.Library.Streak
import PgWorkQueue.System.Availability
import PgWorkQueue.System.BatchPush
import PgWorkQueue.System.Burial
import PgWorkQueue.System.CheckSafety
import PgWorkQueue.System.ClaimBooks
import PgWorkQueue.System.Completion
import PgWorkQueue.System.ConcurrentClaim
import PgWorkQueue.System.Counting
import PgWorkQueue.System.Delivery
import PgWorkQueue.System.Escalation
import PgWorkQueue.System.Exclusion
import PgWorkQueue.System.Execution
import PgWorkQueue.System.Fencing
import PgWorkQueue.System.Fleet
import PgWorkQueue.System.History
import PgWorkQueue.System.Interleaving
import PgWorkQueue.System.Join
import PgWorkQueue.System.JoinProgress
import PgWorkQueue.System.KeyLimits
import PgWorkQueue.System.Locality
import PgWorkQueue.System.MarkOrder
import PgWorkQueue.System.Overtaking
import PgWorkQueue.System.Permits
import PgWorkQueue.System.Polling
import PgWorkQueue.System.Purge
import PgWorkQueue.System.QueueIsolation
import PgWorkQueue.System.Races
import PgWorkQueue.System.RealTime
import PgWorkQueue.System.ReaperLoop
import PgWorkQueue.System.Recovery
import PgWorkQueue.System.RetryBudget
import PgWorkQueue.System.Snapshots
import PgWorkQueue.System.Shutdown
import PgWorkQueue.System.ShutdownProgress
import PgWorkQueue.System.SoftCancel
import PgWorkQueue.System.TaskSetSize
import PgWorkQueue.System.TickOnce
import PgWorkQueue.System.Transitions
import PgWorkQueue.System.Waiting
