import Mathlib.Data.List.Sort
import TakaFlow.Config
import TakaFlow.Schema

/-!
# Statements

The SQL of the repositories, one definition for each statement. An `UPDATE` assigns the columns of
the row it found to values computed when it runs; an `INSERT` draws its identifiers from the
environment.
-/

namespace TakaFlow

open Txn

/-! ### Transactions -/

lemma byte_pos : 0 < 256 := by decide

/-- What a step draws from outside: identifiers, values of the identity sequences, the position
in the write-ahead log, a treasury stripe and random bytes. -/
structure Env where
  uuid : Uuid := 0
  serial : ℕ := 0
  nextSerial : ℕ := 0
  lsn : String := ""
  stripe : Fin treasuryStripeCount := ⟨0, treasuryStripeCount_pos⟩
  bytes : ℕ → Fin 256 := fun _ => ⟨0, byte_pos⟩

/-- Work registered with `afterCommit`. -/
inductive Hook where
  | writeBalances (values : List (Uuid × ℤ × ℕ))
  | trackLsn (userIds : List Uuid) (lsn : String)
  | sendSecurityAlert (userId : Uuid) (reference : String) (amountMinor : ℤ)

/-- A callback of `withTransaction`. -/
abbrev Tx (α : Type) : Type 1 := Program Database Token DriverError Env Hook Error α

abbrev Query (ρ : Type) : Type := Stmt Database Token DriverError Env ρ

section

variable {α ρ : Type}

/-- `tx.query`. -/
abbrev query (s : Query ρ) : Tx ρ := Program.exec Error.ofDriver s

def fail (e : DomainError) : Tx α := .throw (.domain e)

/-- `if (!p) throw e`. -/
def require (p : Prop) [Decidable p] (e : DomainError) : Tx Unit := if p then .ret () else fail e

/-- `if (!o) throw e`. -/
def orFail (o : Option α) (e : DomainError) : Tx α :=
  match o with
  | some a => .ret a
  | none => fail e

/-- `Date.now()`, together with what else a step draws. -/
def dateNow : Tx (Millis × Env) := .input fun t x => .ret (toMillis t, x)

end

/-- What an `INSERT` meets when its identifier is in use. -/
def duplicateId : DriverError := .pg { code := PgError.uniqueViolation }

/-- `INSERT ... RETURNING *` of one row under a generated identifier. -/
def insertRow {α : Type} (table : TableName) (id : Env → ℕ) (put : α → Database → Database)
    (row : Timestamp → Env → α) : Query α :=
  Stmt.insert (fun x => [.fresh table (id x)]) [] (fun x d => !d.has table (id x)) duplicateId
    (fun now x => put (row now x)) row

/-- `UPDATE ... RETURNING *` of at most one row: the new version of the row found. -/
def updateRow {α : Type} (find : Timestamp → Database → Option α) (lock : α → Token)
    (assign : Timestamp → α → α) (put : α → Database → Database) : Query (Option α) :=
  Stmt.update (fun now d => (find now d).map (assign now)) lock fun _ => put

/-! ### Writes -/

namespace Database

variable (d : Database)

def insertUser (r : User) : Database := { d with users := d.users.insert r }

def insertAccount (r : Account) : Database := { d with accounts := d.accounts.insert r }

def insertKey (r : IdempotencyKey) : Database :=
  { d with idempotencyKeys := d.idempotencyKeys.insert r }

def insertRequest (r : MoneyRequest) : Database :=
  { d with moneyRequests := d.moneyRequests.insert r }

def insertSplit (r : BillSplit) : Database := { d with billSplits := d.billSplits.insert r }

def insertSchedule (r : Schedule) : Database := { d with schedules := d.schedules.insert r }

def insertOccurrence (r : Occurrence) : Database :=
  { d with occurrences := d.occurrences.insert r }

def insertEvent (r : OutboxEvent) : Database := { d with outboxEvents := d.outboxEvents.insert r }

def insertAudit (r : AuditLog) : Database := { d with auditLogs := d.auditLogs.insert r }

def insertToken (r : RefreshToken) : Database :=
  { d with refreshTokens := d.refreshTokens.insert r }

/-- The transfer and its two entries, written by one statement. -/
def insertTransfer (t : Transfer) (debit credit : LedgerEntry) : Database :=
  { d with
    transfers := d.transfers.insert t
    ledgerEntries := (d.ledgerEntries.insert debit).insert credit }

/-- The columns an `UPDATE` of an account can change. -/
def setAccount (r : Account) : Database :=
  { d with
    accounts := d.accounts.modify r.id fun a =>
      { a with status := r.status, balanceMinor := r.balanceMinor, version := r.version } }

def setKey (r : IdempotencyKey) : Database :=
  { d with
    idempotencyKeys := d.idempotencyKeys.modify r.id fun k =>
      { k with
        state := r.state
        responseStatus := r.responseStatus
        responseBody := r.responseBody
        completedAt := r.completedAt } }

def setTransfer (r : Transfer) : Database :=
  { d with transfers := d.transfers.modify r.id fun t => { t with status := r.status } }

def setRequest (r : MoneyRequest) : Database :=
  { d with
    moneyRequests := d.moneyRequests.modify r.id fun q =>
      { q with
        status := r.status
        settledTransferId := r.settledTransferId
        declineReason := r.declineReason
        version := r.version
        updatedAt := r.updatedAt } }

def setSchedule (r : Schedule) : Database :=
  { d with
    schedules := d.schedules.modify r.id fun s =>
      { s with
        nextRunAt := r.nextRunAt
        retryAfter := r.retryAfter
        remainingRuns := r.remainingRuns
        status := r.status
        lastRunAt := r.lastRunAt } }

/-- The row is the one found, so it has the identifier and the key of the row found. -/
def setOccurrence (r : Occurrence) : Database :=
  { d with
    occurrences := d.occurrences.modify r.id
      (fun o => if o.key = r.key then
        { o with
          status := r.status
          transferId := r.transferId
          failureReason := r.failureReason
          attempts := r.attempts
          completedAt := r.completedAt } else o)
      (by intro o; split <;> rfl) }

end Database

/-! ### Idempotency keys -/

def insertIdempotencyKey (userId : Uuid) (key endpoint requestHash : String) :
    Query (Option Uuid) :=
  Stmt.insertUnique (.idempotencyKey userId key) (fun d => (d.findKey userId key).isSome)
    (.done none id []) (fun x => [.fresh .idempotencyKeys x.uuid])
    (fun x d => !d.has .idempotencyKeys x.uuid) duplicateId
    (fun now x d => d.insertKey
      { id := x.uuid, userId, key, endpoint, requestHash, state := .inProgress, createdAt := now })
    (fun _ x => some x.uuid)

def selectIdempotencyKey (userId : Uuid) (key : String) : Query (Option IdempotencyKey) :=
  Stmt.select fun _ d => d.findKey userId key

def IdempotencyKey.complete (r : IdempotencyKey) (status : ℕ) (body : Json) (now : Timestamp) :
    IdempotencyKey :=
  { r with
    state := .completed
    responseStatus := some status
    responseBody := some body
    completedAt := some now }

def updateIdempotencyKey (id : Uuid) (status : ℕ) (body : Json) :
    Query (Option IdempotencyKey) :=
  updateRow (fun _ d => d.idempotencyKeys.get? id) (fun r => .fresh .idempotencyKeys r.id)
    (fun now r => r.complete status body now) fun r d => d.setKey r

/-! ### Users and accounts -/

structure PayeeAccount where
  userId : Uuid
  accountId : Uuid
  name : String
  phone : String
  accountStatus : AccountStatus
  userStatus : UserStatus

def selectPayeeByPhone (phone : String) : Query (Option PayeeAccount) :=
  Stmt.select fun _ d => do
    let u ← d.userByPhone phone
    let a ← d.accountOf u.id
    return { userId := u.id, accountId := a.id, name := u.name, phone := u.phone,
             accountStatus := a.status, userStatus := u.status }

def selectAccountIdForUser (userId : Uuid) : Query (Option Uuid) :=
  Stmt.select fun _ d => (d.accountOf userId).map Account.id

def selectUser (id : Uuid) : Query (Option User) := Stmt.select fun _ d => d.users.get? id

def insertUserRow (phone name passwordHash pinHash : String) : Query User :=
  Stmt.insertUnique (.phone phone) (fun d => (d.userByPhone phone).isSome) (.failed duplicateId)
    (fun x => [.fresh .users x.uuid]) (fun x d => !d.has .users x.uuid) duplicateId
    (fun now x d => d.insertUser
      { id := x.uuid, phone, name, passwordHash, pinHash, createdAt := now })
    (fun now x => { id := x.uuid, phone, name, passwordHash, pinHash, createdAt := now })

def insertAccountRow (userId : Uuid) : Query Account :=
  insertRow .accounts Env.uuid (fun r d => d.insertAccount r) fun _ x =>
    { id := x.uuid, userId := some userId, type := .user, status := .active, balanceMinor := 0 }

/-- `SELECT ... FROM accounts WHERE id = $1 FOR UPDATE`. -/
def selectAccountForUpdate (id : Uuid) : Query (Option Account) :=
  Stmt.selectForUpdate (fun _ d => d.accounts.get? id) fun a => .account a.id

/-- `SELECT ... FROM accounts WHERE user_id = $1 FOR UPDATE`. -/
def selectAccountOfUserForUpdate (userId : Uuid) : Query (Option Account) :=
  Stmt.selectForUpdate (fun _ d => d.accountOf userId) fun a => .account a.id

def Account.addBalance (a : Account) (delta : ℤ) : Account :=
  { a with balanceMinor := a.balanceMinor + delta, version := a.version + 1 }

def Account.withStatus (a : Account) (status : AccountStatus) : Account :=
  { a with status, version := a.version + 1 }

/-- `SET balance_minor = balance_minor + $2, version = version + 1 WHERE id = $1`. -/
def updateBalance (id : Uuid) (delta : ℤ) : Query (Option Account) :=
  updateRow (fun _ d => d.accounts.get? id) (fun a => .account a.id)
    (fun _ a => a.addBalance delta) fun a d => d.setAccount a

/-- `SET status = $2, version = version + 1 WHERE id = $1`. -/
def updateAccountStatus (id : Uuid) (status : AccountStatus) : Query (Option Account) :=
  updateRow (fun _ d => d.accounts.get? id) (fun a => .account a.id)
    (fun _ a => a.withStatus status) fun a d => d.setAccount a

/-- `SET status = 'CLOSED' WHERE user_id = $1`, which only an operator's console issues. -/
def updateAccountClosed (userId : Uuid) : Query (Option Account) :=
  updateRow (fun _ d => d.accountOf userId) (fun a => .account a.id)
    (fun _ a => { a with status := .closed }) fun a d => d.setAccount a

/-- The account joined with its user. -/
def selectAccountView (id : Uuid) : Query (Option (Account × User)) :=
  Stmt.select fun _ d => do
    let a ← d.accounts.get? id
    let u ← a.userId.bind d.users.get?
    return (a, u)

/-! ### Transfers -/

/-- `pg_advisory_xact_lock(hashtext($1))`. -/
def advisoryXactLock (P : Platform) (accountId : Uuid) : Query (Option ℤ) :=
  Stmt.selectForUpdate (fun _ _ => some (P.hashtext (uuidText accountId))) .advisory

def microsPerSecond : ℕ := 1000000

/-- The start of a window that ends now. -/
def windowStart (now : Timestamp) (seconds : ℕ) : ℤ := now - seconds * microsPerSecond

/-- `count(*)` and `min(created_at)` of the recent payments of an account. -/
def selectRecentTransfers (P : Platform) (accountId : Uuid) : Query (ℕ × Option Timestamp) :=
  Stmt.selectMarking (fun now d =>
    let recent := d.countedTransfers accountId (windowStart now P.policy.windowSeconds)
    (recent.length, (recent.map Transfer.createdAt).min?)) (.pace accountId)

def secondsPerDay : ℕ := 24 * 60 * 60

/-- `COALESCE(SUM(amount_minor), 0)` over the last 24 hours. -/
def selectOutboundInWindow (accountId : Uuid) : Query ℤ :=
  Stmt.selectMarking (fun now d => d.outboundTotal accountId (windowStart now secondsPerDay))
    (.spend accountId)

structure NewTransfer where
  reference : String
  fromAccountId : Uuid
  toAccountId : Uuid
  amountMinor : ℤ
  type : TransferType
  note : Option String
  idempotencyKeyId : Option Uuid
  reversalOf : Option Uuid
  senderBalanceAfter : ℤ
  receiverBalanceAfter : ℤ

def NewTransfer.row (n : NewTransfer) (now : Timestamp) (x : Env) : Transfer :=
  { id := x.uuid
    reference := n.reference
    fromAccountId := n.fromAccountId
    toAccountId := n.toAccountId
    amountMinor := n.amountMinor
    type := n.type
    note := n.note
    idempotencyKeyId := n.idempotencyKeyId
    reversalOf := n.reversalOf
    createdAt := now }

def Transfer.debit (t : Transfer) (id : ℕ) (balanceAfter : ℤ) : LedgerEntry :=
  { id, transferId := t.id, accountId := t.fromAccountId, direction := .debit,
    amountMinor := t.amountMinor, balanceAfter, createdAt := t.createdAt }

def Transfer.credit (t : Transfer) (id : ℕ) (balanceAfter : ℤ) : LedgerEntry :=
  { id, transferId := t.id, accountId := t.toAccountId, direction := .credit,
    amountMinor := t.amountMinor, balanceAfter, createdAt := t.createdAt }

/-- The transfer and its entries, in one statement. A settlement is marked as one more recent
payment of its sender, which no earlier statement of its transaction has counted. -/
def insertTransferRow (n : NewTransfer) : Query Transfer :=
  Stmt.insert
    (fun x => [.fresh .transfers x.uuid, .fresh .ledgerEntries x.serial,
      .fresh .ledgerEntries x.nextSerial])
    (if n.type = .requestSettlement then [.pace n.fromAccountId, .settle n.fromAccountId] else [])
    (fun x d => !d.has .transfers x.uuid && !d.has .ledgerEntries x.serial &&
      !d.has .ledgerEntries x.nextSerial && decide (x.serial ≠ x.nextSerial))
    duplicateId
    (fun now x d =>
      let t := n.row now x
      d.insertTransfer t (t.debit x.serial n.senderBalanceAfter)
        (t.credit x.nextSerial n.receiverBalanceAfter))
    n.row

structure OriginalTransfer where
  transfer : Transfer
  senderUserId : Option Uuid
  recipientUserId : Option Uuid

/-- Does the reference itself bound the date of the transfer? -/
def inReferenceRange (reference : String) (t : Transfer) : Bool :=
  match referenceDateRange reference with
  | some (start, stop) => start ≤ t.createdAt ∧ t.createdAt < stop
  | none => true

def Database.originalTransfer (d : Database) (reference : String) : Option OriginalTransfer :=
  (d.transfers.rows.filter fun t => t.reference = reference ∧
    inReferenceRange reference t).findSome? fun t => do
      let sa ← d.accounts.get? t.fromAccountId
      let ra ← d.accounts.get? t.toAccountId
      return { transfer := t, senderUserId := sa.userId, recipientUserId := ra.userId }

def selectOriginal (reference : String) : Query (Option OriginalTransfer) :=
  Stmt.select fun _ d => d.originalTransfer reference

/-- `SET status = 'REVERSED' WHERE id = $1 AND created_at = $2 AND status = 'COMPLETED'`. -/
def updateReversed (id : Uuid) (createdAt : Timestamp) : Query (Option Transfer) :=
  updateRow
    (fun _ d => (d.transfers.get? id).filter fun t =>
      t.createdAt = createdAt ∧ t.status = .completed)
    (fun t => .transfer t.id) (fun _ t => { t with status := .reversed }) fun t d => d.setTransfer t

/-! ### Money requests -/

def insertRequestRow (requesterUserId payerUserId : Uuid) (amountMinor : ℤ)
    (note : Option String) (expiresAt : Timestamp) (splitId : Option Uuid) :
    Query MoneyRequest :=
  insertRow .moneyRequests Env.uuid (fun r d => d.insertRequest r) fun now x =>
    { id := x.uuid, requesterUserId, payerUserId, amountMinor, note, expiresAt, splitId,
      createdAt := now, updatedAt := now }

def selectRequest (id : Uuid) : Query (Option MoneyRequest) :=
  Stmt.select fun _ d => d.moneyRequests.get? id

def selectSettleableRequest (id payerUserId : Uuid) : Query (Option MoneyRequest) :=
  Stmt.selectForUpdate
    (fun now d => (d.moneyRequests.get? id).filter fun r =>
      r.payerUserId = payerUserId ∧ r.status = .pending ∧ now < r.expiresAt)
    fun r => .request r.id

def MoneyRequest.accept (r : MoneyRequest) (transferId : Uuid) (now : Timestamp) : MoneyRequest :=
  { r with
    status := .accepted
    settledTransferId := some transferId
    version := r.version + 1
    updatedAt := now }

def updateAccepted (id settledTransferId : Uuid) : Query (Option MoneyRequest) :=
  updateRow (fun _ d => (d.moneyRequests.get? id).filter fun r => r.status = .pending)
    (fun r => .request r.id) (fun now r => r.accept settledTransferId now) fun r d => d.setRequest r

inductive ActorColumn where
  | payerUserId
  | requesterUserId

def MoneyRequest.actor (r : MoneyRequest) : ActorColumn → Uuid
  | .payerUserId => r.payerUserId
  | .requesterUserId => r.requesterUserId

/-- `decline_reason = COALESCE($4, decline_reason)`. -/
def MoneyRequest.transition (r : MoneyRequest) (target : RequestStatus) (reason : Option String)
    (now : Timestamp) : MoneyRequest :=
  { r with
    status := target
    declineReason := reason <|> r.declineReason
    version := r.version + 1
    updatedAt := now }

def updateRequestStatus (id : Uuid) (target : RequestStatus) (actorColumn : ActorColumn)
    (actorUserId : Uuid) (reason : Option String) : Query (Option MoneyRequest) :=
  updateRow
    (fun _ d => (d.moneyRequests.get? id).filter fun r =>
      r.actor actorColumn = actorUserId ∧ r.status = .pending)
    (fun r => .request r.id) (fun now r => r.transition target reason now)
    fun r d => d.setRequest r

/-- `EXPIRED`, for the rows given. -/
def Database.expire (now : Timestamp) (rows : List MoneyRequest) (d : Database) : Database :=
  rows.foldl (fun d r => d.setRequest (r.transition .expired none now)) d

/-- The batch of `expireDue`: `ORDER BY expires_at LIMIT $1 FOR UPDATE SKIP LOCKED`. -/
def dueRequests (limit : ℕ) (now : Timestamp) (d : Database) (taken : Token → Bool) :
    List MoneyRequest :=
  (((d.moneyRequests.rows.filter fun r => r.status = .pending ∧ r.expiresAt ≤ now).insertionSort
    fun a b => a.expiresAt ≤ b.expiresAt).filter fun r => !taken (.request r.id)).take limit

def updateExpired (limit : ℕ) : Query (List MoneyRequest) := fun now _ d taken =>
  let rows := dueRequests limit now d taken
  .done rows (fun d => d.expire now rows) (rows.map fun r => .request r.id)

/-! ### Splits -/

def insertSplitRow (creatorUserId : Uuid) (totalAmountMinor : ℤ) (description : String)
    (participantCount : ℕ) : Query BillSplit :=
  insertRow .billSplits Env.uuid (fun r d => d.insertSplit r) fun now x =>
    { id := x.uuid, creatorUserId, totalAmountMinor, description, participantCount,
      createdAt := now }

/-! ### Schedules -/

def insertScheduleRow (ownerUserId payeeUserId : Uuid) (amountMinor : ℤ) (note : Option String)
    (intervalKind : IntervalKind) (startAt : Timestamp) (remainingRuns : Option ℤ) :
    Query Schedule :=
  insertRow .schedules Env.uuid (fun r d => d.insertSchedule r) fun now x =>
    { id := x.uuid, ownerUserId, payeeUserId, amountMinor, note, intervalKind,
      nextRunAt := startAt, remainingRuns, createdAt := now }

def selectSchedule (id : Uuid) : Query (Option Schedule) :=
  Stmt.select fun _ d => d.schedules.get? id

/-- The `WHERE` clause of both statements about due schedules. -/
def Schedule.IsDue (now : Timestamp) (s : Schedule) : Prop :=
  s.status = .active ∧ s.nextRunAt ≤ now ∧ s.retryAfter.getD now ≤ now

instance (now : Timestamp) (s : Schedule) : Decidable (s.IsDue now) := by
  unfold Schedule.IsDue
  infer_instance

/-- The due schedules, the first one due first. -/
def selectDueScheduleIds (limit : ℕ) : Query (List Uuid) :=
  Stmt.select fun now d =>
    (((d.schedules.rows.filter fun s => s.IsDue now).insertionSort fun a b =>
      a.nextRunAt ≤ b.nextRunAt).take limit).map Schedule.id

/-- `FOR UPDATE SKIP LOCKED` of one due schedule: it never waits. -/
def selectDueSchedule (id : Uuid) : Query (Option Schedule) := fun now _ d taken =>
  match (d.schedules.get? id).filter fun s =>
      s.status = .active ∧ s.nextRunAt ≤ now ∧ (s.retryAfter.getD now) ≤ now with
  | none => .done none (fun d => d) []
  | some s =>
    if taken (.schedule s.id) then .done none (fun d => d) []
    else .done (some s) (fun d => d) [.schedule s.id]

/-- `INSERT ... ON CONFLICT (occurrence_key) DO UPDATE ... WHERE status = 'PENDING'`. -/
def upsertOccurrence (scheduleId : Uuid) (dueAt : Timestamp) : Query (Option Occurrence) :=
  fun _ x d taken =>
    let key : OccurrenceKey := (scheduleId, dueAt)
    if taken (.occurrence key) then .blocked (.occurrence key)
    else match d.occurrenceAt key with
      | some o =>
        if o.status = .pending then
          let o' := { o with attempts := o.attempts + 1 }
          .done (some o') (fun d => d.setOccurrence o') [.occurrence key]
        else .done none id [.occurrence key]
      | none =>
        if !d.has .occurrences x.uuid && !taken (.fresh .occurrences x.uuid) then
          let o : Occurrence := { id := x.uuid, scheduleId, dueAt, attempts := 1 }
          .done (some o) (fun d => d.insertOccurrence o)
            [.fresh .occurrences x.uuid, .occurrence key]
        else .failed duplicateId

def Occurrence.settle (o : Occurrence) (status : OccurrenceStatus) (transferId : Option Uuid)
    (failureReason : Option String) (now : Timestamp) : Occurrence :=
  { o with
    status
    transferId
    failureReason := failureReason.map fun r => (r.take 500).toString
    completedAt := some now }

/-- `WHERE id = $1`. -/
def updateOccurrence (id : Uuid) (status : OccurrenceStatus) (transferId : Option Uuid)
    (failureReason : Option String) : Query (Option Occurrence) :=
  updateRow (fun _ d => d.occurrences.get? id)
    (fun o => .occurrence o.key) (fun now o => o.settle status transferId failureReason now)
    fun o d => d.setOccurrence o

/-- `next_run_at + interval ...`. -/
def Platform.step (P : Platform) : IntervalKind → Timestamp → Timestamp
  | .once => id
  | .daily => P.addDay
  | .weekly => P.addWeek
  | .monthly => P.addMonth

/-- A one-off schedule has no further occurrence. -/
def Schedule.complete (s : Schedule) (now : Timestamp) : Schedule :=
  { s with
    status := .completed
    remainingRuns := some 0
    lastRunAt := some now
    retryAfter := none }

/-- The next occurrence of a recurring one. -/
def Schedule.next (s : Schedule) (P : Platform) (intervalKind : IntervalKind) (consumeRun : Bool)
    (now : Timestamp) : Schedule :=
  let runsLeft := s.remainingRuns.map fun n => if consumeRun then n - 1 else n
  { s with
    remainingRuns := s.remainingRuns.map fun n => if consumeRun then max (n - 1) 0 else n
    nextRunAt := P.step intervalKind s.nextRunAt
    retryAfter := none
    lastRunAt := some now
    status := if runsLeft.any (· ≤ 0) then .completed else s.status }

/-- The two statements of `advanceSchedule`. -/
def updateScheduleAdvance (P : Platform) (id : Uuid) (intervalKind : IntervalKind)
    (consumeRun : Bool) : Query (Option Schedule) :=
  updateRow (fun _ d => d.schedules.get? id) (fun s => .schedule s.id)
    (fun now s => if intervalKind = .once then s.complete now
      else s.next P intervalKind consumeRun now)
    fun s d => d.setSchedule s

def updateScheduleRetry (id : Uuid) (delaySeconds : ℕ) : Query (Option Schedule) :=
  updateRow (fun _ d => d.schedules.get? id) (fun s => .schedule s.id)
    (fun now s => { s with retryAfter := some (now + delaySeconds * microsPerSecond) })
    fun s d => d.setSchedule s

/-- The columns an owner's transition writes. -/
def Schedule.transition (s : Schedule) (target : ScheduleStatus) (now : Timestamp) : Schedule :=
  { s with
    status := target
    nextRunAt := if target = .active ∧ s.nextRunAt < now then now else s.nextRunAt
    retryAfter := if target = .active then none else s.retryAfter }

def updateScheduleStatus (id ownerUserId : Uuid) (target : ScheduleStatus)
    (legalFrom : List ScheduleStatus) : Query (Option Schedule) :=
  updateRow
    (fun _ d => (d.schedules.get? id).filter fun s =>
      s.ownerUserId = ownerUserId ∧ s.status ∈ legalFrom)
    (fun s => .schedule s.id) (fun now s => s.transition target now) fun s d => d.setSchedule s

/-- The operator's statement: due one second ago. -/
def updateScheduleDue (id : Uuid) : Query (Option Schedule) :=
  updateRow (fun _ d => (d.schedules.get? id).filter fun s => s.status = .active)
    (fun s => .schedule s.id)
    (fun now s => { s with nextRunAt := now - microsPerSecond, retryAfter := none })
    fun s d => d.setSchedule s

/-! ### Events, audit rows, sessions -/

def insertEventRow (eventType : EventType) (aggregateType : String) (aggregateId : Uuid)
    (payload : Fields) : Query OutboxEvent :=
  insertRow .outboxEvents Env.uuid (fun r d => d.insertEvent r) fun now x =>
    { id := x.uuid, eventType, aggregateType, aggregateId, payload, createdAt := now }

/-- The address a request came from. -/
structure RequestContext where
  ip : Option String := none
  userAgent : Option String := none
  requestId : Option String := none

def insertAuditRow (actorUserId : Option Uuid) (action entityType : String)
    (entityId : Option Uuid) (metadata : Fields) (context : RequestContext) : Query AuditLog :=
  insertRow .auditLogs Env.serial (fun r d => d.insertAudit r) fun now x =>
    { id := x.serial, actorUserId, action, entityType, entityId, metadata, ip := context.ip,
      userAgent := context.userAgent, requestId := context.requestId, createdAt := now }

def insertTokenRow (userId familyId : Uuid) (tokenHash : String) (expiresAt : Timestamp)
    (context : RequestContext) : Query RefreshToken :=
  insertRow .refreshTokens Env.uuid (fun r d => d.insertToken r) fun now x =>
    { id := x.uuid, userId, familyId, tokenHash, expiresAt, userAgent := context.userAgent,
      ip := context.ip, createdAt := now }

/-- `pg_current_wal_insert_lsn()`. -/
def selectCurrentLsn : Query String := fun _ x _ _ => .done x.lsn id []

end TakaFlow
