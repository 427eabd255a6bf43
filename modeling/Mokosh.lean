import Mokosh.Lib.Decimal
import Mokosh.Lib.Table
import Mokosh.Lib.Journal
import Mokosh.Lib.Transition
import Mokosh.Lib.ChangeLog
import Mokosh.Types
import Mokosh.Contracts.Period
import Mokosh.Contracts.Hours
import Mokosh.Contracts.Ledger
import Mokosh.Contracts.Rollover
import Mokosh.TimeTracking.Entry
import Mokosh.TimeTracking.Service
import Mokosh.TimeTracking.Operations
import Mokosh.TimeTracking.Overage
import Mokosh.TimeTracking.Schedule
import Mokosh.TimeTracking.FirstDraw
import Mokosh.TimeTracking.Timers
import Mokosh.TimeTracking.TwoWays
import Mokosh.TimeTracking.DayCap
import Mokosh.Contracts.Renewal
import Mokosh.Billing.Invoice
import Mokosh.Billing.Service
import Mokosh.Billing.Payments
import Mokosh.Billing.Machine
import Mokosh.Billing.Balance
import Mokosh.Billing.Totals
import Mokosh.Billing.Work
import Mokosh.Billing.Writes
import Mokosh.Billing.Void
import Mokosh.Billing.Collection
import Mokosh.Billing.Amendments
import Mokosh.Billing.Agreement
import Mokosh.Billing.Gateway
import Mokosh.Billing.Statement
import Mokosh.Billing.Account
import Mokosh.Billing.Books
import Mokosh.Billing.PaidOnce
import Mokosh.Billing.Reminders
import Mokosh.Billing.Recurring
import Mokosh.ContactSync.Source
import Mokosh.ContactSync.Matching
import Mokosh.ContactSync.Contacts
import Mokosh.ContactSync.Sync
import Mokosh.ContactSync.Service
import Mokosh.ContactSync.Passes
import Mokosh.ContactSync.Stop
import Mokosh.ContactSync.Fields
import Mokosh.ContactSync.Locks
import Mokosh.ContactSync.Preview
import Mokosh.ContactSync.Selection
import Mokosh.ContactSync.CardDav
import Mokosh.ContactSync.Vcard
import Mokosh.ContactSync.ICloud
import Mokosh.ContactSync.Deletion
import Mokosh.ContactSync.OnePerson
import Mokosh.Workflows.Executor
import Mokosh.Workflows.Cascade
import Mokosh.Workflows.Plan
import Mokosh.Workflows.Failures
import Mokosh.Workflows.Stale
import Mokosh.EmailIntake.Service
import Mokosh.EmailIntake.Once
import Mokosh.Expenses.Bill
import Mokosh.Expenses.Ledger
import Mokosh.Expenses.Delegated
import Mokosh.Expenses.Reimburse
import Mokosh.Lib.ReadCommitted
import Mokosh.Quotes.Quote
import Mokosh.Quotes.Service
import Mokosh.Quotes.Leaves
import Mokosh.Quotes.Totals
import Mokosh.Quotes.Lifecycle
import Mokosh.Lib.Serial
import Mokosh.Quotes.LineEdits
import Mokosh.Lib.Requests
import Mokosh.Approvals.Service
import Mokosh.Approvals.Once
import Mokosh.Approvals.Chain
import Mokosh.Notifications.Worker
import Mokosh.Notifications.Delivery
import Mokosh.Utils.Text
import Mokosh.Utils.ClientIp
import Mokosh.Auth.SecondFactor
import Mokosh.Auth.SpentOnce
import Mokosh.Auth.GuessBudget
import Mokosh.Auth.LoginApproval
import Mokosh.Auth.Sessions
import Mokosh.Auth.OldPassword
import Mokosh.Auth.Deactivated
import Mokosh.Auth.TenantPicker
import Mokosh.Lib.Digraph
import Mokosh.Projects.Dependencies
import Mokosh.Lib.Keyed
import Mokosh.Auth.Grants
import Mokosh.Auth.GrantInvitations
import Mokosh.Lib.RowLocks
import Mokosh.Auth.LockOrder
import Mokosh.Auth.GrantEvents
import Mokosh.Auth.Identities
import Mokosh.Auth.SeatMirror
import Mokosh.Auth.MfaFlag
import Mokosh.Lib.Dialogue
import Mokosh.Auth.Placement
import Mokosh.Auth.Callers
import Mokosh.Auth.Alone
import Mokosh.Auth.FastPath
import Mokosh.Auth.RefusedPrincipals
import Mokosh.Auth.UsablePrincipals
import Mokosh.Auth.Invited
import Mokosh.Calendar.Recurrence
import Mokosh.Calendar.Range
import Mokosh.Calendar.Reminders
import Mokosh.TimeTracking.WorkDay
import Mokosh.ContactPortal.Families
import Mokosh.Lib.Windows
import Mokosh.Auth.ReauthBudget
import Mokosh.Auth.GrantCache
import Mokosh.Tickets.NoteEmail
import Mokosh.Workflows.Preserve
import Mokosh.Tickets.Closing
import Mokosh.Lib.Binary64
import Mokosh.Utils.Pagination
import Mokosh.KnowledgeBase.ExecutionSteps
import Mokosh.Tickets.Automation
import Mokosh.Utils.Json
import Mokosh.Notifications.Render
import Mokosh.Lib.SortedMap
import Mokosh.Utils.Sanitize
import Mokosh.Lib.FreeNames
import Mokosh.Lib.Placeholders
import Mokosh.SavedReports.Compiler
import Mokosh.SavedReports.Shape
import Mokosh.SavedReports.Filters
import Mokosh.Lib.Csv
import Mokosh.SavedReports.Delivered
import Mokosh.Notifications.Recipients
import Mokosh.Lib.Expiring
import Mokosh.Auth.BackchannelLogout
import Mokosh.Lib.Bits
import Mokosh.Utils.Totp
import Mokosh.Expenses.BillLines
import Mokosh.ContactSync.Phones
import Mokosh.ContactSync.Digest
import Mokosh.Audit.TaskMarkers
import Mokosh.ContactSync.Offers
import Mokosh.Billing.StoredTotals
import Mokosh.Lib.Blocks
import Mokosh.ContactSync.VcardBytes
import Mokosh.ContactSync.Framing
import Mokosh.ContactSync.Reviewed
import Mokosh.ContactSync.Decision
import Mokosh.TimeTracking.Rounding
import Mokosh.Contracts.Months
import Mokosh.Contracts.PeriodWalk
import Mokosh.Contracts.RenewedTerm
import Mokosh.Contracts.RollCompleteness
import Mokosh.Sla.Schedule
import Mokosh.Sla.Clock
import Mokosh.Sla.Hits
import Mokosh.Lib.OpenTime
import Mokosh.Sla.Due
import Mokosh.Sla.Laws
import Mokosh.Sla.Sweep
import Mokosh.Forms.Validation
import Mokosh.Forms.Rules
import Mokosh.Lib.Walks
import Mokosh.Assets.Impact
