import Mathlib.Data.Prod.Lex
import TakaFlow.Lib.Keyset
import TakaFlow.Lib.Sql
import TakaFlow.Ledger

/-!
# Reading the ledger

A statement is read from the entries of an account, each joined with its transfer and with whoever
is on the other side.
-/

namespace TakaFlow

open Txn

/-- `(e.created_at, e.id)`. -/
def LedgerEntry.place (e : LedgerEntry) : ℕ ×ₗ ℕ := toLex (e.createdAt, e.id)

/-! ### The joined rows -/

/-- An entry, its transfer, the account on the other side and the user it belongs to. -/
abbrev HistoryRow := ((LedgerEntry × Transfer) × Account) × Option User

namespace HistoryRow

variable (row : HistoryRow)

def entry : LedgerEntry := row.1.1.1

def transfer : Transfer := row.1.1.2

end HistoryRow

/-- `CASE WHEN e.direction = 'DEBIT' THEN t.to_account_id ELSE t.from_account_id END`. -/
def counterpartyAccountId (e : LedgerEntry) (t : Transfer) : Uuid :=
  match e.direction with
  | .debit => t.toAccountId
  | .credit => t.fromAccountId

/-- The rows of `SELECT`. -/
def Database.historyRows (d : Database) : List HistoryRow :=
  Sql.leftJoin (fun (q : (LedgerEntry × Transfer) × Account) (cu : User) =>
      q.2.userId = some cu.id)
    (Sql.join (fun (q : LedgerEntry × Transfer) (ca : Account) =>
        ca.id = counterpartyAccountId q.1 q.2)
      (Sql.join (fun (e : LedgerEntry) (t : Transfer) =>
          t.id = e.transferId ∧ t.createdAt = e.createdAt)
        d.ledgerEntries.rows d.transfers.rows)
      d.accounts.rows)
    d.users.rows

structure HistoryEntry where
  id : ℕ
  createdAt : Timestamp
  direction : Direction
  amountMinor : ℤ
  balanceAfterMinor : ℤ
  reference : String
  type : TransferType
  status : TransferStatus
  note : Option String
  counterpartyName : String
  counterpartyPhone : Option String

def mapEntry (row : HistoryRow) : HistoryEntry :=
  { id := row.entry.id
    createdAt := row.entry.createdAt
    direction := row.entry.direction
    amountMinor := row.entry.amountMinor
    balanceAfterMinor := row.entry.balanceAfter
    reference := row.transfer.reference
    type := row.transfer.type
    status := row.transfer.status
    note := row.transfer.note
    counterpartyName := (row.2.map User.name).getD "TakaFlow"
    counterpartyPhone := row.2.map User.phone }

/-- `toDTO`. -/
def historyItemDTO (entry : HistoryEntry) : Json :=
  .obj [("id", .str (toString entry.id)), ("reference", .str entry.reference),
    ("direction", .str (match entry.direction with | .credit => "IN" | .debit => "OUT")),
    ("type", .str entry.type.text), ("status", .str entry.status.text),
    ("amount", money entry.amountMinor), ("balanceAfter", money entry.balanceAfterMinor),
    ("note", .ofOption entry.note),
    ("counterparty", .obj [("name", .str entry.counterpartyName),
      ("phone", .ofOption entry.counterpartyPhone)]),
    ("createdAt", .date entry.createdAt)]

/-! ### One movement -/

/-- The rows `findByReference` selects from. -/
def Database.receiptRows (d : Database) (accountId : Uuid) (reference : String) :
    List HistoryRow :=
  d.historyRows.filter fun row =>
    decide (row.entry.accountId = accountId ∧ row.transfer.reference = reference) &&
      match referenceDateRange reference with
      | some (start, stop) => start ≤ row.entry.createdAt ∧ row.entry.createdAt < stop
      | none => true

/-- `LIMIT 1`. -/
def findByReference (accountId : Uuid) (reference : String) (d : Database) :
    Option HistoryEntry :=
  (d.receiptRows accountId reference).head?.map mapEntry

/-- `getReceipt`: the account is looked up in the first state, the movement in the second. -/
def getReceipt (userId : Uuid) (reference : String) (x y : Database) : Except DomainError Json :=
  match x.accountOf userId with
  | none => .error (errors.notFound "Account")
  | some account =>
    match findByReference account.id reference y with
    | none => .error (errors.notFound "Transfer")
    | some entry => .ok (historyItemDTO entry)

end TakaFlow
