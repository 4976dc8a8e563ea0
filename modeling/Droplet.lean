import Droplet.Sla.Breach
import Droplet.Audit.Fork
import Droplet.Audit.RootChain
import Droplet.Pm.DeepLink
import Droplet.Pm.CycleSafety
import Droplet.Pm.OutboxDelivery
import Droplet.Pm.CsvExport
import Droplet.Pm.PagingRuns
import Droplet.Access.Monotone
import Droplet.People.Operators
import Droplet.Update.CrashSafety
import Droplet.Outbound.Spelling
import Droplet.Runs.Progress
import Droplet.Confirm.Approval
import Droplet.Sessions.Listed
import Droplet.M365.Positions
import Droplet.ErpSync.Relanding
import Droplet.Recordings.GivingUp
import Droplet.Brain.Drained
import Droplet.Webhooks.Runs
import Droplet.Support.History
import Droplet.Support.Solved
import Droplet.Filing.Marked
import Droplet.Confirm.Granted
import Droplet.Sla.Escalating
import Droplet.Tokens.Successor
import Droplet.Departments.Converged
import Droplet.Departments.Removed
import Droplet.Access.Gates
import Droplet.Audit.Stored
import Droplet.Ics.Nested
import Droplet.Pm.Burndown
import Droplet.Pm.OneFact
import Droplet.ErpSync.Sweeping
import Droplet.Filing.Queue
import Droplet.Money
import Droplet.Support.Births
import Droplet.Support.Matching
import Droplet.Support.SenderLimit
import Droplet.WallClock
