import TakaFlow.Lib.Snapshots
import TakaFlow.Lib.Sql
import TakaFlow.Schema

/-!
# Reconciliation

The report of `reconcile` on whatever rows the schema lets in, however they came about.
-/

namespace TakaFlow

open Txn

/-- The primary keys of the partitioned tables. -/
def Transfer.key (t : Transfer) : Uuid × Timestamp := (t.id, t.createdAt)

def LedgerEntry.key (e : LedgerEntry) : ℕ × Timestamp := (e.id, e.createdAt)

/-- The tables reconciliation reads, with the keys and the constraints of the schema that it does
not itself check. -/
structure Relations where
  accounts : Table Account.id := {}
  transfers : Table Transfer.key := {}
  ledgerEntries : Table LedgerEntry.key := {}
  idempotencyKeys : Table IdempotencyKey.id := {}
  holders : ∀ a ∈ accounts.rows, a.type = .user ↔ a.userId.isSome := by decide
  amounts : ∀ t ∈ transfers.rows, 0 < t.amountMinor := by decide
  sides : ∀ t ∈ transfers.rows, t.fromAccountId ≠ t.toAccountId ∧
    accounts.has t.fromAccountId ∧ accounts.has t.toAccountId := by decide
  entryAmounts : ∀ e ∈ ledgerEntries.rows, 0 < e.amountMinor := by decide
  entryAccounts : ∀ e ∈ ledgerEntries.rows, accounts.has e.accountId := by decide

/-! ### The report -/

/-- A row a check returns. -/
inductive Violation where
  | net (netMinor : ℤ)
  | drift (accountId : Uuid) (balanceMinor ledgerMinor : ℤ)
  | unbalanced (transferId : Uuid) (reason : String)
  | orphanLedgerEntry (transferId : Uuid)
  | negativeUserBalance (id : Uuid) (balanceMinor : ℤ)
  | strandedIdempotencyKey (id : Uuid) (createdAt : Timestamp)
  deriving DecidableEq

structure CheckResult where
  name : String
  claim : String
  pass : Bool
  detail : String
  violations : List Violation
  deriving DecidableEq

structure Totals where
  userMoney : String
  treasury : String
  net : String
  accounts : ℕ
  transfers : ℕ
  ledgerEntries : ℕ
  deriving DecidableEq

structure Report where
  pass : Bool
  totals : Totals
  checks : List CheckResult
  deriving DecidableEq

/-- `timed`, without the clock. -/
def timed (name claim detail : String) (violations : List Violation) : CheckResult :=
  { name, claim, pass := violations.isEmpty, detail, violations := violations.take 20 }

def conservationOfMoney (net : ℤ) : CheckResult :=
  timed "conservation_of_money" "The signed sum of every account balance is exactly zero."
    (if net = 0 then "Every poisha held by a user is matched by a debit against the treasury."
      else "Off by " ++ formatTaka net ++
        " BDT — money was created or destroyed outside the ledger.")
    (if net = 0 then [] else [.net net])

def balancesMatchLedger (rows : List Violation) : CheckResult :=
  timed "balances_match_ledger" "Every account balance equals the signed sum of its ledger entries."
    (if rows.isEmpty then "The cached balance column agrees with the ledger for every account."
      else toString rows.length ++ " account(s) have drifted from their ledger history.")
    rows

def doubleEntryComplete (rows : List Violation) : CheckResult :=
  timed "double_entry_complete"
    "Every transfer has exactly two entries of equal value and opposite direction."
    (if rows.isEmpty then "Every movement is a complete, balanced double entry."
      else toString rows.length ++ " transfer(s) are not balanced double entries.")
    rows

def noOrphans (violations : List Violation) : CheckResult :=
  timed "no_orphans"
    ("No ledger entry exists without its transfer, no user account may be negative, and no " ++
      "idempotency claim is stranded mid-flight.")
    (if violations.isEmpty then
        "No orphaned entries, no negative user balances, no stranded claims."
      else toString violations.length ++ " structural violation(s) found.")
    violations

def report (totals : Totals) (net : ℤ) (drifted unbalanced orphans negative stranded :
    List Violation) : Report :=
  let checks := [conservationOfMoney net, balancesMatchLedger drifted,
    doubleEntryComplete unbalanced, noOrphans (orphans ++ negative ++ stranded)]
  { pass := checks.all CheckResult.pass, totals, checks }

/-! ### The statements -/

namespace Relations

variable (d : Relations)

/-- The statement of `readTotals`. -/
def totals : Totals :=
  let balances := fun p : Account → Bool =>
    Sql.coalesce (Sql.sum ((d.accounts.rows.filter p).map fun a => some a.balanceMinor)) 0
  { userMoney := formatTaka (balances fun a => a.type = .user)
    treasury := formatTaka (balances fun a => a.type = .system)
    net := formatTaka (balances fun _ => true)
    accounts := d.accounts.rows.length
    transfers := d.transfers.rows.length
    ledgerEntries := d.ledgerEntries.rows.length }

def net : ℤ := Sql.coalesce (Sql.sum (d.accounts.rows.map fun a => some a.balanceMinor)) 0

/-- `CASE e.direction WHEN 'CREDIT' THEN e.amount_minor ELSE -e.amount_minor END`, added up. -/
def signedSum {α : Type} (rows : List (α × Option LedgerEntry)) : Option ℤ :=
  Sql.sum (rows.map fun q => q.2.map LedgerEntry.signed)

/-- The accounts that do not agree with their entries. -/
def drifted : List Violation :=
  (Sql.groupByHaving (fun q => (q.1.id, q.1.balanceMinor))
    (Sql.leftJoin (fun a e => e.accountId = a.id) d.accounts.rows d.ledgerEntries.rows)
    fun k rows => Sql.ne (some k.2) (some (Sql.coalesce (signedSum rows) 0))).map
    fun g => .drift g.1.1 g.1.2 (Sql.coalesce (signedSum g.2) 0)

/-- The reason a group is given. -/
def unbalancedReason (amountMinor : ℤ) (rows : List (Transfer × Option LedgerEntry)) : String :=
  let count := Sql.count (rows.map fun q => q.2.map LedgerEntry.id)
  if count ≠ 2 then "entry count is " ++ toString count
  else if Sql.coalesce (signedSum rows) 1 ≠ 0 then "entries do not net to zero"
  else if (Sql.ne (Sql.min (rows.map fun q => q.2.map LedgerEntry.amountMinor))
    (some amountMinor)).holds then "entry amount <> transfer amount"
  else "unknown"

/-- The `HAVING` of the third check. -/
def isUnbalanced (amountMinor : ℤ) (rows : List (Transfer × Option LedgerEntry)) : Sql.Truth :=
  ((Sql.ne (some (Sql.count (rows.map fun q => q.2.map LedgerEntry.id))) (some 2)).or
    (Sql.ne (some (Sql.coalesce (signedSum rows) 1)) (some 0))).or
    ((Sql.ne (Sql.min (rows.map fun q => q.2.map LedgerEntry.amountMinor)) (some amountMinor)).or
      (Sql.ne (Sql.max (rows.map fun q => q.2.map LedgerEntry.amountMinor)) (some amountMinor)))

/-- The transfers without a balanced double entry, grouped by identifier and amount. -/
def unbalanced : List Violation :=
  (Sql.groupByHaving (fun q => (q.1.id, q.1.amountMinor))
    (Sql.leftJoin (fun t e => e.transferId = t.id ∧ e.createdAt = t.createdAt) d.transfers.rows
      d.ledgerEntries.rows)
    fun k rows => isUnbalanced k.2 rows).map
    fun g => .unbalanced g.1.1 (unbalancedReason g.1.2 g.2)

/-- The entries without their transfer. -/
def orphans : List Violation :=
  ((((Sql.leftJoin (fun e t => t.id = e.transferId ∧ t.createdAt = e.createdAt)
    d.ledgerEntries.rows d.transfers.rows).filter fun q => q.2.isNone).map
    fun q => q.1.transferId).dedup).map .orphanLedgerEntry

def negative : List Violation :=
  (d.accounts.rows.filter fun a => a.type = .user ∧ a.balanceMinor < 0).map
    fun a => .negativeUserBalance a.id a.balanceMinor

def microsPerMinute : ℕ := 60 * 1000000

/-- `created_at < now() - interval '1 minute'`. -/
def stranded (now : Timestamp) : List Violation :=
  (d.idempotencyKeys.rows.filter fun r =>
    r.state = .inProgress ∧ r.createdAt + microsPerMinute < now).map
    fun r => .strandedIdempotencyKey r.id r.createdAt

end Relations

/-! ### The program -/

/-- The mark of a transaction that has begun to read. -/
inductive AuditMark where
  | reading
  deriving DecidableEq

abbrev Audit (α : Type) : Type 1 := Program Relations AuditMark DriverError Unit Empty Error α

/-- One read of the report. -/
def ask {ρ : Type} (f : Timestamp → Relations → ρ) : Audit ρ :=
  Program.exec Error.ofDriver (Stmt.selectMarking f .reading)

/-- `reconcile`: seven statements of one transaction at READ COMMITTED. -/
def reconcile : Audit Report := do
  let totals ← ask fun _ d => d.totals
  let net ← ask fun _ d => d.net
  let drifted ← ask fun _ d => d.drifted
  let unbalanced ← ask fun _ d => d.unbalanced
  let orphans ← ask fun _ d => d.orphans
  let negative ← ask fun _ d => d.negative
  let stranded ← ask fun now d => d.stranded now
  return report totals net drifted unbalanced orphans negative stranded

/-- The report of `reconcile` where all its statements see the same rows. -/
def Relations.reconciled (now : Timestamp) (d : Relations) : Report :=
  report d.totals d.net d.drifted d.unbalanced d.orphans d.negative (d.stranded now)

/-- A transaction that reconciles, or one of any other session, with whatever effect it has. -/
inductive AuditCall where
  | reconcile
  | other (write : Relations → Relations)

def auditBody : AuditCall → Audit (Option Report)
  | .reconcile => do
    let r ← reconcile
    return some r
  | .other write => do
    Program.exec Error.ofDriver (fun _ _ _ _ => .done () write [])
    return none

abbrev AuditState : Type 1 :=
  Sys Relations AuditMark DriverError Unit Empty Error (Option Report) AuditCall

end TakaFlow
