import TakaFlow.Cursor
import TakaFlow.History
import TakaFlow.Requests
import TakaFlow.Schedules

/-!
# Lists

The entries of an account, the requests of a user and the schedules of an owner, newest first and a
page at a time.
-/

namespace TakaFlow

open Txn

/-! ### Entries -/

/-- `'IN' | 'OUT'`. -/
inductive Flow where
  | into
  | outOf

def Flow.direction : Flow → Direction
  | into => .credit
  | outOf => .debit

/-- A query that the schema has parsed; dates are milliseconds, of any year. -/
structure HistoryQuery where
  direction : Option Flow := none
  type : Option TransferType := none
  from_ : Option ℤ := none
  to_ : Option ℤ := none
  minAmountMinor : Option ℕ := none
  maxAmountMinor : Option ℕ := none
  counterpartyPhone : Option String := none
  limit : ℕ := 20
  cursor : Option String := none

namespace HistoryQuery

variable (q : HistoryQuery)

/-- The conditions of `WHERE` apart from the cursor. An empty phone is no condition. -/
def selects (accountId : Uuid) (row : HistoryRow) : Bool :=
  decide (row.entry.accountId = accountId) &&
    q.direction.all (fun flow => row.entry.direction = flow.direction) &&
    q.type.all (fun type => row.transfer.type = type) &&
    q.from_.all (fun t => t * 1000 ≤ (row.entry.createdAt : ℤ)) &&
    q.to_.all (fun t => (row.entry.createdAt : ℤ) < t * 1000) &&
    q.minAmountMinor.all (fun n => (n : ℤ) ≤ row.entry.amountMinor) &&
    q.maxAmountMinor.all (fun n => row.entry.amountMinor ≤ (n : ℤ)) &&
    q.counterpartyPhone.all fun phone => phone = "" || row.2.any fun cu => cu.phone = phone

/-- Both dates, if there are two, are in order. -/
def inOrder : Bool := q.from_.all fun t => q.to_.all fun t' => t ≤ t'

/-- Both amounts are a `bigint`. -/
def castsAmounts : Bool :=
  q.minAmountMinor.all (· < bigintLimit) && q.maxAmountMinor.all (· < bigintLimit)

end HistoryQuery

/-- The rows of `listHistory` without its cursor and its limit. -/
def Database.matchingRows (d : Database) (accountId : Uuid) (q : HistoryQuery) :
    List HistoryRow :=
  d.historyRows.filter (q.selects accountId)

def HistoryRow.place (row : HistoryRow) : ℕ ×ₗ ℕ := row.entry.place

section

variable (P : Platform) (T : TimestampText)

/-- `listHistory` of the repository. -/
def selectHistory (accountId : Uuid) (q : HistoryQuery) (limit : ℕ) (cursor : Option Cursor)
    (d : Database) : Except Error (List HistoryRow) :=
  if q.castsAmounts then
    selectPage P T bigintColumn HistoryRow.place limit cursor (d.matchingRows accountId q)
  else .error (.driver { code := PgError.numericValueOutOfRange })

inductive ServedBy where
  | primary
  | replica

structure HistoryPage extends Page where
  servedBy : ServedBy

/-- `listHistory`: the account is looked up in the first state, the entries in the second, which
the primary or a replica shows. -/
def listHistory (userId : Uuid) (query : HistoryQuery) (x : Database) (servedBy : ServedBy)
    (y : Database) : Except Error HistoryPage :=
  match x.accountOf userId with
  | none => .error (.domain (errors.notFound "Account"))
  | some account =>
    if query.inOrder then do
      let cursor ← (decodeCursor query.cursor).mapError Error.domain
      let rows ← selectHistory P T account.id query (query.limit + 1) cursor y
      let hasMore := query.limit < rows.length
      let items := if hasMore then rows.take query.limit else rows
      let nextCursor :=
        if hasMore then items.getLast?.map fun last =>
          encodeCursor (cursorAt T bigintColumn last.place)
        else none
      return { items := items.map fun row => historyItemDTO (mapEntry row), nextCursor, servedBy }
    else .error (.domain (errors.validation "\x60from\x60 must be earlier than \x60to\x60"))

end

/-! ### Requests -/

inductive Role where
  | incoming
  | outgoing

/-- `selfColumn`. -/
def Role.self (role : Role) (r : MoneyRequest) : Uuid :=
  match role with
  | incoming => r.payerUserId
  | outgoing => r.requesterUserId

/-- `otherColumn`. -/
def Role.other (role : Role) (r : MoneyRequest) : Uuid :=
  match role with
  | incoming => r.requesterUserId
  | outgoing => r.payerUserId

/-- A request, the user on the other side and the transfer that has settled it. -/
abbrev RequestRow := (MoneyRequest × User) × Option Transfer

def RequestRow.place (row : RequestRow) : ℕ ×ₗ ℕ := toLex (row.1.1.createdAt, row.1.1.id)

structure ListRequestsQuery where
  role : Role := .incoming
  status : Option RequestStatus := none
  limit : ℕ := 20
  cursor : Option String := none

/-- The rows of `listRequests` without its cursor and its limit. -/
def Database.requestRows (d : Database) (userId : Uuid) (role : Role)
    (status : Option RequestStatus) : List RequestRow :=
  (Sql.leftJoin (fun (q : MoneyRequest × User) (t : Transfer) =>
      q.1.settledTransferId = some t.id)
    (Sql.join (fun (r : MoneyRequest) (u : User) => u.id = role.other r)
      d.moneyRequests.rows d.users.rows)
    d.transfers.rows).filter fun row =>
      decide (role.self row.1.1 = userId) && status.all (fun status => row.1.1.status = status)

def RequestRow.dto (userId : Uuid) (row : RequestRow) : Json :=
  requestDTO row.1.1 userId ⟨row.1.2.name, row.1.2.phone⟩ (row.2.map Transfer.reference)

def listRequests (P : Platform) (T : TimestampText) (userId : Uuid) (query : ListRequestsQuery)
    (d : Database) : Except Error Page :=
  listPage P T uuidColumn RequestRow.place (RequestRow.dto userId) query.limit query.cursor
    (d.requestRows userId query.role query.status)

/-! ### Schedules -/

/-- A schedule and its payee. -/
abbrev ScheduleRow := Schedule × User

def ScheduleRow.place (row : ScheduleRow) : ℕ ×ₗ ℕ := toLex (row.1.createdAt, row.1.id)

structure ListSchedulesQuery where
  status : Option ScheduleStatus := none
  limit : ℕ := 20
  cursor : Option String := none

/-- The rows of `listSchedules` without its cursor and its limit. -/
def Database.scheduleRows (d : Database) (ownerUserId : Uuid) (status : Option ScheduleStatus) :
    List ScheduleRow :=
  (Sql.join (fun (s : Schedule) (u : User) => u.id = s.payeeUserId) d.schedules.rows
    d.users.rows).filter fun row =>
      decide (row.1.ownerUserId = ownerUserId) && status.all (fun status => row.1.status = status)

def ScheduleRow.dto (row : ScheduleRow) : Json :=
  scheduleDTO row.1 ⟨row.2.name, row.2.phone⟩

def listSchedules (P : Platform) (T : TimestampText) (ownerUserId : Uuid)
    (query : ListSchedulesQuery) (d : Database) : Except Error Page :=
  listPage P T uuidColumn ScheduleRow.place ScheduleRow.dto query.limit query.cursor
    (d.scheduleRows ownerUserId query.status)

end TakaFlow
