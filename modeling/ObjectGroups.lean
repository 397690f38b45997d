import ObjectGroups.Config.Form
import ObjectGroups.Form.Read
import ObjectGroups.Main
import ObjectGroups.Script.Crew
import ObjectGroups.Script.Rig
import ObjectGroups.Script.Scene
import ObjectGroups.Proofs.Parts
import ObjectGroups.Proofs.Stance
import ObjectGroups.Proofs.Books
import ObjectGroups.Proofs.Order
import ObjectGroups.Proofs.Shift
import ObjectGroups.Proofs.OrderKept
import ObjectGroups.Proofs.MutualExclusion
import ObjectGroups.Proofs.Awaits
import ObjectGroups.Proofs.Resumption
import ObjectGroups.Proofs.Timing
import ObjectGroups.Proofs.Waits
import ObjectGroups.Proofs.Aside
import ObjectGroups.Proofs.Housing
import ObjectGroups.Proofs.Suspension
import ObjectGroups.Proofs.Bystander
import ObjectGroups.Proofs.Attention
import ObjectGroups.Proofs.WakeUps
import ObjectGroups.Proofs.Failures
import ObjectGroups.Proofs.Vantage
import ObjectGroups.Proofs.History
import ObjectGroups.Proofs.Ledger
import ObjectGroups.Proofs.Arrivals
import ObjectGroups.Proofs.QueueFirst
import ObjectGroups.Proofs.Interrupts
import ObjectGroups.Proofs.Candid
import ObjectGroups.Proofs.Cancellation
import ObjectGroups.Proofs.Records
import ObjectGroups.Proofs.Signals
import ObjectGroups.Proofs.Alert
import ObjectGroups.Proofs.Remaining
import ObjectGroups.Proofs.Heeded
import ObjectGroups.Proofs.Courses
import ObjectGroups.Proofs.Attendance
import ObjectGroups.Proofs.Roll
import ObjectGroups.Proofs.Lifecycle
import ObjectGroups.Proofs.Presence
import ObjectGroups.Proofs.Contexts
import ObjectGroups.Proofs.Conservation
import ObjectGroups.Proofs.Inert
import ObjectGroups.Proofs.Closing
import ObjectGroups.Proofs.Shutdown
import ObjectGroups.Proofs.Accounting
import ObjectGroups.Proofs.Snapshots
import ObjectGroups.Proofs.Lasting
import ObjectGroups.Proofs.Voices
import ObjectGroups.Proofs.Readiness
import ObjectGroups.Proofs.Tales
import ObjectGroups.Proofs.Narration
import ObjectGroups.Proofs.Additions
import ObjectGroups.Proofs.Deliveries
import ObjectGroups.Proofs.Listeners
import ObjectGroups.Proofs.Deadlines
import ObjectGroups.Proofs.Readings
import ObjectGroups.Proofs.Oversleeping
import ObjectGroups.Proofs.Containment
import ObjectGroups.Proofs.Faults
import ObjectGroups.Proofs.Callers
import ObjectGroups.Proofs.Attempts
import ObjectGroups.Proofs.Refusals
import ObjectGroups.Proofs.Submissions
import ObjectGroups.Proofs.Sure
import ObjectGroups.Proofs.Jobs
import ObjectGroups.Proofs.Stock
import ObjectGroups.Proofs.Cast
import ObjectGroups.Proofs.Scenes
import ObjectGroups.Proofs.Playing
import ObjectGroups.Proofs.BoundedBuffer
import ObjectGroups.Proofs.Parking
import ObjectGroups.Proofs.Permits
import ObjectGroups.Proofs.Resolutions
import ObjectGroups.Proofs.Subscriptions
import ObjectGroups.Proofs.Bodies
import ObjectGroups.Proofs.Calls
import ObjectGroups.Proofs.Results
import ObjectGroups.Proofs.Timers
import ObjectGroups.Proofs.BoundedWaits
import ObjectGroups.Proofs.Splicing
import ObjectGroups.Proofs.Nesting
import ObjectGroups.Proofs.Overrides
import ObjectGroups.Proofs.Stability
import ObjectGroups.Proofs.Executions
