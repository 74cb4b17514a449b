import Shiftlush.Outcomes
import Shiftlush.Transitions
import Shiftlush.Transactions.Program
import Shiftlush.Transactions.Machine
import Shiftlush.Transactions.Convention
import Shiftlush.Transactions.Atomicity
import Shiftlush.Transactions.Notes
import Shiftlush.Transactions.Guarded
import Shiftlush.Transactions.Deadlock
import Shiftlush.Transactions.Serial
import Shiftlush.Transactions.Alone
import Shiftlush.Transactions.Anytime
import Shiftlush.Transactions.Footprint
import Shiftlush.Rows
import Shiftlush.Money
import Shiftlush.Ledger.Records
import Shiftlush.Ledger.Posting
import Shiftlush.Ledger.Services
import Shiftlush.Ledger.Vouchers
import Shiftlush.Ledger.Invariant
import Shiftlush.Ledger.Steps
import Shiftlush.Ledger.Entries
import Shiftlush.Ledger.Transitions
import Shiftlush.Ledger.Locks
import Shiftlush.Ledger.Writes
import Shiftlush.Ledger.PostingSound
import Shiftlush.Ledger.ServicesSound
import Shiftlush.Ledger.DocumentsSound
import Shiftlush.Ledger.CancelSound
import Shiftlush.Ledger.InvoicesSound
import Shiftlush.Ledger.Discipline
import Shiftlush.Ledger.Runs
import Shiftlush.Ledger.Reconciliation
import Shiftlush.Ledger.Guarantees
import Shiftlush.Ledger.ClosedPeriod
import Shiftlush.Ledger.LockOrder
import Shiftlush.Ledger.Footprint
import Shiftlush.Ledger.Numbers
import Shiftlush.Ledger.Tills
import Shiftlush.Ledger.Currencies
import Shiftlush.Idempotency.Replay
import Shiftlush.Idempotency.Moves
import Shiftlush.Idempotency.Once
import Shiftlush.Idempotency.Fence
import Shiftlush.Idempotency.Guarantees
import Shiftlush.Tenancy
import Shiftlush.Sessions.Services
import Shiftlush.Sessions.Moves
import Shiftlush.Sessions.Rotation
import Shiftlush.Sessions.Revocation
import Shiftlush.Calendar
import Shiftlush.Text
import Shiftlush.Fleet.Records
import Shiftlush.Fleet.Services
import Shiftlush.Fleet.Moves
import Shiftlush.Fleet.Keys
import Shiftlush.Fleet.Finished
import Shiftlush.Fleet.Holding
import Shiftlush.Fleet.RedLabel
import Shiftlush.Fleet.Restoring
import Shiftlush.Fleet.Agreements
import Shiftlush.Fleet.AgreementsSound
import Shiftlush.Fleet.ClosedOnce
import Shiftlush.Billing.Records
import Shiftlush.Billing.Services
import Shiftlush.Billing.Moves
import Shiftlush.Billing.LineEdits
import Shiftlush.Billing.LineEditsSound
import Shiftlush.Billing.Serializable
import Shiftlush.Billing.Periods
import Shiftlush.Billing.Generation
import Shiftlush.Billing.Office
import Shiftlush.Billing.Integrity
import Shiftlush.Billing.PeriodsOnce
import Shiftlush.Attachments.Records
import Shiftlush.Attachments.Keys
import Shiftlush.Attachments.Storage
import Shiftlush.Attachments.Purging
import Shiftlush.Inspections.Register
import Shiftlush.Inspections.Deadlines
import Shiftlush.Users.Team
import Shiftlush.Users.Owners
import Shiftlush.Users.Links
import Shiftlush.Users.OneTime
import Shiftlush.Portal.Accounts
import Shiftlush.Portal.Closing
import Shiftlush.Audit.Trail
import Shiftlush.Audit.Replay
import Shiftlush.Scheduling.Ticks
import Shiftlush.Scheduling.Once
import Shiftlush.Ledger.CarryOver
import Shiftlush.Ledger.CarryOverSteps
import Shiftlush.Ledger.CarryOverSound
import Shiftlush.Ledger.CarryOverRuns
import Shiftlush.Tilings
import Shiftlush.Billing.PeriodsTile
import Shiftlush.Ledger.Statement
import Shiftlush.Ledger.Finance
import Shiftlush.Fleet.Terms
import Shiftlush.Billing.EveryPeriod
import Shiftlush.Faults.Records
import Shiftlush.Reports.Content
import Shiftlush.Reports.Conservation
import Shiftlush.Maintenance.Plan
import Shiftlush.Maintenance.PlanRows
import Shiftlush.Maintenance.Recording
import Shiftlush.Maintenance.InStep
import Shiftlush.Maintenance.DueDates
import Shiftlush.Faults.Services
import Shiftlush.Faults.Discipline
import Shiftlush.Faults.ServicesSound
import Shiftlush.Faults.Course
import Shiftlush.Faults.Runs
import Shiftlush.Faults.Lifecycle
import Shiftlush.Faults.Merging
import Shiftlush.Inspections.Current
import Shiftlush.Inspections.Warnings
import Shiftlush.Fleet.Renewals
import Shiftlush.Decimals
import Shiftlush.Billing.Amounts
import Shiftlush.Billing.ContractScreen
import Shiftlush.Fleet.ContractNumbers
import Shiftlush.Billing.Columns
import Shiftlush.Maintenance.Routing
import Shiftlush.Address.Matching
import Shiftlush.Maintenance.Replanning
import Shiftlush.Failing
import Shiftlush.Reports.Files
import Shiftlush.Reports.FilesSound
import Shiftlush.Reports.FileRuns
import Shiftlush.Billing.ChargedOnce
import Shiftlush.Addresses
import Shiftlush.Validators
import Shiftlush.ClientIp
import Shiftlush.Observability
import Shiftlush.Redaction
import Shiftlush.Caches
import Shiftlush.Users.Lockout
import Shiftlush.Users.LockoutSound
import Shiftlush.Users.Edits
import Shiftlush.Users.EditsSound
import Shiftlush.Attachments.Refusals
import Shiftlush.Billing.Repairs
import Shiftlush.Csv
import Shiftlush.Numerals
import Shiftlush.Exports
import Shiftlush.Ledger.StatementFile
import Shiftlush.Billing.ExportFile
import Shiftlush.Address.Loading
import Shiftlush.Address.LoadingSound
import Shiftlush.Customers.Records
import Shiftlush.Customers.RecordsSound
import Shiftlush.Customers.Contacts
import Shiftlush.Maintenance.Signatures
import Shiftlush.Maintenance.Checklists
import Shiftlush.Inbox.Notifying
import Shiftlush.Inbox.Told
import Shiftlush.Inbox.Preferences
import Shiftlush.Lists
import Shiftlush.Portal.Views
import Shiftlush.Portal.Isolation
import Shiftlush.Portal.Undisturbed
import Shiftlush.Estate.Requests
import Shiftlush.Estate.Standing
import Shiftlush.Estate.Stickers
import Shiftlush.Estate.Counts
