import TakaFlow.Lib.Session
import TakaFlow.Lib.Soundness
import TakaFlow.Lib.Table
import TakaFlow.Errors
import TakaFlow.Format
import TakaFlow.Schema
import TakaFlow.Config
import TakaFlow.Events
import TakaFlow.Idempotency
import TakaFlow.Ledger
import TakaFlow.Transfers
import TakaFlow.Requests
import TakaFlow.Splits
import TakaFlow.Accounts
import TakaFlow.Schedules
import TakaFlow.System
import TakaFlow.Lib.Rules
import TakaFlow.Discipline
import TakaFlow.Frames
import TakaFlow.Rules
import TakaFlow.Lib.History
import TakaFlow.Spec.Movement
import TakaFlow.Spec.Checks
import TakaFlow.Spec.Idempotency
import TakaFlow.Spec.Transfers
import TakaFlow.Spec.Requests
import TakaFlow.Spec.Splits
import TakaFlow.Spec.Schedules
import TakaFlow.Spec.Accounts
import TakaFlow.Spec.System
import TakaFlow.Spec.Effects
import TakaFlow.Spec.Money
import TakaFlow.Safety.Books
import TakaFlow.Safety.ExactlyOnce
import TakaFlow.Lib.WaitsFor
import TakaFlow.Safety.Deadlock
import TakaFlow.Safety.Freeze
import TakaFlow.Safety.Reversal
import TakaFlow.Spec.Pace
import TakaFlow.Safety.Limits
import TakaFlow.Safety.Windows
import TakaFlow.Spec.Announcements
import TakaFlow.Safety.RequestLife
import TakaFlow.Safety.Payments
import TakaFlow.Safety.Accounting
import TakaFlow.Safety.Announced
import TakaFlow.Lib.Snapshots
import TakaFlow.Lib.Sql
import TakaFlow.Reconciliation
import TakaFlow.Safety.Reconciled
import TakaFlow.Auth
import TakaFlow.Spec.Sessions
import TakaFlow.Spec.Auth
import TakaFlow.Safety.Sessions
import TakaFlow.Lib.Machine
import TakaFlow.Pin
import TakaFlow.Safety.PinLockout
import TakaFlow.Lib.Deadline
import TakaFlow.Spec.Publishing
import TakaFlow.Cache
import TakaFlow.Safety.CacheCoherence
import TakaFlow.Spec.Planning
import TakaFlow.Safety.Deferral
import TakaFlow.SplitViews
import TakaFlow.Safety.SplitProgress
import TakaFlow.Calendar
import TakaFlow.History
import TakaFlow.Safety.References
import TakaFlow.Safety.MonthlyDates
import TakaFlow.Safety.Attempts
import TakaFlow.Worker
import TakaFlow.Safety.Isolation
import TakaFlow.Safety.RunningBalance
import TakaFlow.Cursor
import TakaFlow.Listings
import TakaFlow.Spec.Cursors
import TakaFlow.Safety.ReferenceText
import TakaFlow.Safety.RetryAfter
import TakaFlow.Safety.SpentShown
import TakaFlow.Lib.Apportion
import TakaFlow.Safety.FairSplits
import TakaFlow.Amounts
import TakaFlow.Lib.Csv
import TakaFlow.Safety.AmountText
import TakaFlow.Safety.StatementText
import TakaFlow.Safety.CursorCasts
import TakaFlow.Lib.Quoting
import TakaFlow.Safety.RequestText
import TakaFlow.Safety.Paging
import TakaFlow.Lib.Drain
import TakaFlow.Safety.StatementView
import TakaFlow.Spec.Alone
import TakaFlow.Spec.Visits
import TakaFlow.Spec.Headway
import TakaFlow.Safety.CatchUp
import TakaFlow.ReadRouter
import TakaFlow.Safety.ReadYourWrites
import TakaFlow.Lib.Bank
import TakaFlow.Lib.Faults
import TakaFlow.Migrations
import TakaFlow.Notifications
import TakaFlow.Outbox
import TakaFlow.Safety.Backoff
import TakaFlow.Safety.CleanReports
import TakaFlow.Safety.Migrated
import TakaFlow.Safety.Receipts
import TakaFlow.Safety.PastBalances
import TakaFlow.Client
import TakaFlow.Process
import TakaFlow.Safety.OneIntent
import TakaFlow.Safety.Shutdown
