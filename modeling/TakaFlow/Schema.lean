import TakaFlow.Format
import TakaFlow.Lib.Table

/-!
# The schema

One record for each table of the migrations, with the columns the modelled statements read or
write, and the tokens a transaction can hold on them.
-/

namespace TakaFlow

open Txn

/-! ### Column types -/

inductive UserStatus where
  | active
  | suspended
  deriving DecidableEq

inductive AccountType where
  | user
  | system
  deriving DecidableEq

inductive AccountStatus where
  | active
  | frozen
  | closed
  deriving DecidableEq

def AccountStatus.text : AccountStatus → String
  | active => "ACTIVE"
  | frozen => "FROZEN"
  | closed => "CLOSED"

inductive TransferType where
  | p2p
  | mint
  | requestSettlement
  | reversal
  | scheduled
  deriving DecidableEq

def TransferType.text : TransferType → String
  | p2p => "P2P"
  | mint => "MINT"
  | requestSettlement => "REQUEST_SETTLEMENT"
  | reversal => "REVERSAL"
  | scheduled => "SCHEDULED"

inductive TransferStatus where
  | completed
  | reversed
  deriving DecidableEq

def TransferStatus.text : TransferStatus → String
  | completed => "COMPLETED"
  | reversed => "REVERSED"

inductive Direction where
  | debit
  | credit
  deriving DecidableEq

inductive KeyState where
  | inProgress
  | completed
  deriving DecidableEq

inductive RequestStatus where
  | pending
  | accepted
  | declined
  | cancelled
  | expired
  deriving DecidableEq

def RequestStatus.text : RequestStatus → String
  | pending => "PENDING"
  | accepted => "ACCEPTED"
  | declined => "DECLINED"
  | cancelled => "CANCELLED"
  | expired => "EXPIRED"

/-- `status.toLowerCase()`. -/
def RequestStatus.lower : RequestStatus → String
  | pending => "pending"
  | accepted => "accepted"
  | declined => "declined"
  | cancelled => "cancelled"
  | expired => "expired"

inductive ScheduleStatus where
  | active
  | paused
  | completed
  | cancelled
  deriving DecidableEq

def ScheduleStatus.text : ScheduleStatus → String
  | active => "ACTIVE"
  | paused => "PAUSED"
  | completed => "COMPLETED"
  | cancelled => "CANCELLED"

def ScheduleStatus.lower : ScheduleStatus → String
  | active => "active"
  | paused => "paused"
  | completed => "completed"
  | cancelled => "cancelled"

inductive IntervalKind where
  | once
  | daily
  | weekly
  | monthly
  deriving DecidableEq

def IntervalKind.text : IntervalKind → String
  | once => "ONCE"
  | daily => "DAILY"
  | weekly => "WEEKLY"
  | monthly => "MONTHLY"

inductive OccurrenceStatus where
  | pending
  | paid
  | failed
  | skipped
  deriving DecidableEq

inductive EventType where
  | userRegistered
  | moneyReceived
  | requestCreated
  | requestAccepted
  | requestDeclined
  | requestCancelled
  | requestExpired
  | transferReversed
  | schedulePaid
  | scheduleFailed
  | scheduleSkipped
  | accountFrozen
  | accountUnfrozen
  | securityAlert
  deriving DecidableEq

def EventType.text : EventType → String
  | userRegistered => "USER_REGISTERED"
  | moneyReceived => "MONEY_RECEIVED"
  | requestCreated => "REQUEST_CREATED"
  | requestAccepted => "REQUEST_ACCEPTED"
  | requestDeclined => "REQUEST_DECLINED"
  | requestCancelled => "REQUEST_CANCELLED"
  | requestExpired => "REQUEST_EXPIRED"
  | transferReversed => "TRANSFER_REVERSED"
  | schedulePaid => "SCHEDULE_PAID"
  | scheduleFailed => "SCHEDULE_FAILED"
  | scheduleSkipped => "SCHEDULE_SKIPPED"
  | accountFrozen => "ACCOUNT_FROZEN"
  | accountUnfrozen => "ACCOUNT_UNFROZEN"
  | securityAlert => "SECURITY_ALERT"

/-! ### Rows -/

structure User where
  id : Uuid
  phone : String
  name : String
  passwordHash : String
  pinHash : String
  status : UserStatus := .active
  createdAt : Timestamp

structure Account where
  id : Uuid
  userId : Option Uuid
  type : AccountType
  status : AccountStatus
  balanceMinor : ℤ
  version : ℕ := 0
  deriving DecidableEq

structure IdempotencyKey where
  id : Uuid
  userId : Uuid
  key : String
  endpoint : String
  requestHash : String
  state : KeyState
  responseStatus : Option ℕ := none
  responseBody : Option Json := none
  createdAt : Timestamp
  completedAt : Option Timestamp := none

structure Transfer where
  id : Uuid
  reference : String
  fromAccountId : Uuid
  toAccountId : Uuid
  amountMinor : ℤ
  type : TransferType
  status : TransferStatus := .completed
  note : Option String
  idempotencyKeyId : Option Uuid
  reversalOf : Option Uuid
  createdAt : Timestamp
  deriving DecidableEq

structure LedgerEntry where
  id : ℕ
  transferId : Uuid
  accountId : Uuid
  direction : Direction
  amountMinor : ℤ
  balanceAfter : ℤ
  createdAt : Timestamp
  deriving DecidableEq

/-- What an entry adds to the balance of its account. -/
def LedgerEntry.signed (e : LedgerEntry) : ℤ :=
  match e.direction with
  | .debit => -e.amountMinor
  | .credit => e.amountMinor

structure MoneyRequest where
  id : Uuid
  requesterUserId : Uuid
  payerUserId : Uuid
  amountMinor : ℤ
  note : Option String
  status : RequestStatus := .pending
  expiresAt : Timestamp
  settledTransferId : Option Uuid := none
  declineReason : Option String := none
  version : ℕ := 0
  createdAt : Timestamp
  updatedAt : Timestamp
  splitId : Option Uuid := none
  deriving DecidableEq

structure BillSplit where
  id : Uuid
  creatorUserId : Uuid
  totalAmountMinor : ℤ
  description : String
  participantCount : ℕ
  createdAt : Timestamp
  deriving DecidableEq

structure Schedule where
  id : Uuid
  ownerUserId : Uuid
  payeeUserId : Uuid
  amountMinor : ℤ
  note : Option String
  intervalKind : IntervalKind
  nextRunAt : Timestamp
  retryAfter : Option Timestamp := none
  remainingRuns : Option ℤ
  status : ScheduleStatus := .active
  lastRunAt : Option Timestamp := none
  createdAt : Timestamp
  deriving DecidableEq

/-- `${schedule.id}:${next_run_at::text}`. The text shows both parts in full, so the key is the
pair itself. -/
abbrev OccurrenceKey := Uuid × Timestamp

structure Occurrence where
  id : Uuid
  scheduleId : Uuid
  dueAt : Timestamp
  status : OccurrenceStatus := .pending
  transferId : Option Uuid := none
  failureReason : Option String := none
  attempts : ℕ
  completedAt : Option Timestamp := none
  deriving DecidableEq

def Occurrence.key (o : Occurrence) : OccurrenceKey := (o.scheduleId, o.dueAt)

structure OutboxEvent where
  id : Uuid
  eventType : EventType
  aggregateType : String
  aggregateId : Uuid
  payload : Fields
  createdAt : Timestamp

structure AuditLog where
  id : ℕ
  actorUserId : Option Uuid
  action : String
  entityType : String
  entityId : Option Uuid
  metadata : Fields
  ip : Option String
  userAgent : Option String
  requestId : Option String
  createdAt : Timestamp

structure RefreshToken where
  id : Uuid
  userId : Uuid
  familyId : Uuid
  tokenHash : String
  expiresAt : Timestamp
  userAgent : Option String
  ip : Option String
  revokedAt : Option Timestamp := none
  replacedBy : Option Uuid := none
  createdAt : Timestamp

structure Database where
  users : Table User.id := {}
  accounts : Table Account.id := {}
  idempotencyKeys : Table IdempotencyKey.id := {}
  transfers : Table Transfer.id := {}
  ledgerEntries : Table LedgerEntry.id := {}
  moneyRequests : Table MoneyRequest.id := {}
  billSplits : Table BillSplit.id := {}
  schedules : Table Schedule.id := {}
  occurrences : Table Occurrence.id := {}
  outboxEvents : Table OutboxEvent.id := {}
  auditLogs : Table AuditLog.id := {}
  refreshTokens : Table RefreshToken.id := {}

/-- The tables whose rows are inserted under generated identifiers. -/
inductive TableName where
  | users
  | accounts
  | idempotencyKeys
  | transfers
  | ledgerEntries
  | moneyRequests
  | billSplits
  | schedules
  | occurrences
  | outboxEvents
  | auditLogs
  | refreshTokens
  deriving DecidableEq

/-- Is this identifier in use? -/
def Database.has (d : Database) : TableName → ℕ → Bool
  | .users => d.users.has
  | .accounts => d.accounts.has
  | .idempotencyKeys => d.idempotencyKeys.has
  | .transfers => d.transfers.has
  | .ledgerEntries => d.ledgerEntries.has
  | .moneyRequests => d.moneyRequests.has
  | .billSplits => d.billSplits.has
  | .schedules => d.schedules.has
  | .occurrences => d.occurrences.has
  | .outboxEvents => d.outboxEvents.has
  | .auditLogs => d.auditLogs.has
  | .refreshTokens => d.refreshTokens.has

/-! ### Tokens -/

/-- What a transaction can hold. The first group are locks of the server: unpublished entries of
unique indexes, advisory locks and row locks. The last three are no locks but marks, which name
what a transaction has read or is about to write: the daily total of an account, its recent
payments, and a settlement out of it. -/
inductive Token where
  | idempotencyKey (userId : Uuid) (key : String)
  | phone (phone : String)
  | fresh (table : TableName) (id : ℕ)
  | advisory (key : ℤ)
  | request (id : Uuid)
  | schedule (id : Uuid)
  | transfer (id : Uuid)
  | occurrence (key : OccurrenceKey)
  | account (id : Uuid)
  | spend (accountId : Uuid)
  | pace (accountId : Uuid)
  | settle (accountId : Uuid)
  deriving DecidableEq

/-- Is the token a lock of the server? -/
def Token.isLock : Token → Bool
  | .spend _ => false
  | .pace _ => false
  | .settle _ => false
  | _ => true

/-! ### Lookups -/

namespace Database

variable (d : Database)

/-- `WHERE user_id = $1 AND key = $2`. -/
def findKey (userId : Uuid) (key : String) : Option IdempotencyKey :=
  d.idempotencyKeys.rows.find? fun r => r.userId = userId ∧ r.key = key

/-- `WHERE phone = $1`. -/
def userByPhone (phone : String) : Option User :=
  d.users.rows.find? fun u => u.phone = phone

/-- `accounts WHERE user_id = $1`. -/
def accountOf (userId : Uuid) : Option Account :=
  d.accounts.rows.find? fun a => a.userId = some userId

/-- `WHERE occurrence_key = $1`. -/
def occurrenceAt (key : OccurrenceKey) : Option Occurrence :=
  d.occurrences.rows.find? fun o => o.key = key

/-- The transfers that use up the daily limit: standing payments out of an account since `t`. -/
def isOutbound (accountId : Uuid) (since : ℤ) (t : Transfer) : Bool :=
  t.fromAccountId = accountId ∧
    (t.type = .p2p ∨ t.type = .requestSettlement ∨ t.type = .scheduled) ∧
    t.status = .completed ∧ since ≤ t.createdAt

/-- `COUNTED_TYPES`. -/
def isCounted (accountId : Uuid) (since : ℤ) (t : Transfer) : Bool :=
  t.fromAccountId = accountId ∧ (t.type = .p2p ∨ t.type = .requestSettlement) ∧ since ≤ t.createdAt

/-- `SUM(amount_minor)` of the outbound transfers. -/
def outboundTotal (accountId : Uuid) (since : ℤ) : ℤ :=
  ((d.transfers.rows.filter (isOutbound accountId since)).map Transfer.amountMinor).sum

def countedTransfers (accountId : Uuid) (since : ℤ) : List Transfer :=
  d.transfers.rows.filter (isCounted accountId since)

end Database

end TakaFlow
